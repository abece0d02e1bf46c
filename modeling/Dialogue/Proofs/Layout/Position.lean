import Dialogue.Proofs.Layout.Levels
import Dialogue.Proofs.Review.Report
/-!
# Where an id stands

There are two ways to a position: a search that looks among the nodes first and among the exits
after them, and a catalog into which the nodes are put first and the exits after them.  The search
answers with the node where an id stands for both, and the catalog with the exit.  So the two agree
on an id unless a node and an exit have it and stand in different places.
-/

namespace Dialogue.Layout

/-! ## One of two answers -/

theorem or_eq_or_swap_iff {β : Type} {a b : Option β} :
    a.or b = b.or a ↔ ∀ x, a = some x → ∀ y, b = some y → x = y := by
  cases a with
  | none => simp
  | some x =>
      cases b with
      | none => simp
      | some y => simp

theorem lookup_map_eq_find? {β γ : Type} (key : β → String) (value : β → γ) (cards : List β)
    (id : String) :
    (cards.map fun card => (key card, value card)).lookup id =
      (cards.find? fun card => key card = id).map value := by
  induction cards with
  | nil => rfl
  | cons card rest ih =>
      rw [List.map_cons, lookup_entry_cons, ih]
      by_cases hid : key card = id
      · rw [if_pos hid.symm, List.find?_cons_of_pos (by simp [hid]), Option.map_some]
      · rw [if_neg (Ne.symm hid), List.find?_cons_of_neg (by simp [hid])]

theorem find?_eq_some_iff_of_nodup {β : Type} {key : β → String} {cards : List β}
    (h : (cards.map key).Nodup) {id : String} {card : β} :
    (cards.find? fun card => key card = id) = some card ↔ card ∈ cards ∧ key card = id := by
  constructor
  · intro hfound
    have hid : key card = id := by simpa using List.find?_some hfound
    exact ⟨List.mem_of_find?_eq_some hfound, hid⟩
  · rintro ⟨hmem, hid⟩
    cases hfound : cards.find? fun card => key card = id with
    | none =>
        have hnone := List.find?_eq_none.1 hfound card hmem
        simp [hid] at hnone
    | some other =>
        have hother : key other = id := by simpa using List.find?_some hfound
        have hsame : other = card :=
          List.inj_on_of_nodup_map h (List.mem_of_find?_eq_some hfound) hmem (hother.trans hid.symm)
        rw [hsame]

/-! ## The two ways -/

section Ways

variable {α : Type} (l : Layout α) (id : String)

/-- The search goes to the nodes first. -/
theorem position?_eq :
    l.position? id = ((l.nodes.find? fun card => card.id = id).map (·.position)).or
      ((l.exits.find? fun card => card.id = id).map (·.position)) := by
  rw [position?, node?]
  cases l.nodes.find? fun card => card.id = id <;> rfl

/-- The catalog keeps the exits. -/
theorem get?_positions (hnodes : (l.nodes.map (·.id)).Nodup) (hexits : (l.exits.map (·.id)).Nodup) :
    l.positions.get? id = ((l.exits.find? fun card => card.id = id).map (·.position)).or
      ((l.nodes.find? fun card => card.id = id).map (·.position)) := by
  have hkeys : ∀ {β : Type} (key : β → String) (value : β → Position α) (cards : List β),
      (cards.map fun card => (key card, value card)).map (·.1) = cards.map key := by
    intro β key value cards
    rw [List.map_map]
    rfl
  rw [positions, Catalog.ofList, List.foldl_append,
    Catalog.get?_foldl_insert _ (by rwa [hkeys]), Catalog.get?_foldl_insert _ (by rwa [hkeys]),
    lookup_map_eq_find?, lookup_map_eq_find?]
  exact congrArg _ Option.or_none

theorem position?_eq_get?_positions_iff (hnodes : (l.nodes.map (·.id)).Nodup)
    (hexits : (l.exits.map (·.id)).Nodup) :
    l.position? id = l.positions.get? id ↔
      ∀ card ∈ l.nodes, card.id = id → ∀ exit ∈ l.exits, exit.id = id →
        card.position = exit.position := by
  rw [position?_eq, get?_positions l id hnodes hexits, or_eq_or_swap_iff]
  simp only [Option.map_eq_some_iff, find?_eq_some_iff_of_nodup hnodes,
    find?_eq_some_iff_of_nodup hexits]
  constructor
  · intro h card hcard hid exit hexit hexitId
    exact h _ ⟨card, ⟨hcard, hid⟩, rfl⟩ _ ⟨exit, ⟨hexit, hexitId⟩, rfl⟩
  · rintro h _ ⟨card, ⟨hcard, hid⟩, rfl⟩ _ ⟨exit, ⟨hexit, hexitId⟩, rfl⟩
    exact h card hcard hid exit hexit hexitId

end Ways

/-! ## Clashes -/

theorem exitId_injective : Function.Injective exitId :=
  fun _ _ h => (String.append_right_inj "exit_").1 h

section Placed

variable {α : Type} [Coordinate α] {t : Tree} {settings : Config α} {mode : Mode}

theorem ids_placedExits (t : Tree) (config : Config α) (cards : List (Card α)) :
    (placedExits t config cards).map (·.id) = (exitStatuses t).map exitId := by
  rw [← statuses_placedExits t config cards, List.map_map]
  refine List.map_congr_left fun exit hexit => ?_
  obtain ⟨entry, -, rfl⟩ := List.mem_map.1 hexit
  rfl

theorem nodup_exitIds_of (t : Tree) (settings : Config α) (mode : Mode) :
    ((Layout.of t settings mode).exits.map (·.id)).Nodup := by
  have hids : (Layout.of t settings mode).exits.map (·.id) = (exitStatuses t).map exitId :=
    ids_placedExits t settings _
  rw [hids]
  exact (nodup_eraseDups _).map exitId_injective

theorem mem_exitStatuses_iff_choices {status : String} :
    status ∈ exitStatuses t ↔ ∃ e ∈ t.choices, e.2.exitStatus = some status := by
  rw [exitStatuses, List.mem_eraseDups, List.mem_filterMap]

theorem exists_isClash {card : Card α} {exit : ExitCard α}
    (hcard : card ∈ (Layout.of t settings mode).nodes)
    (hexit : exit ∈ (Layout.of t settings mode).exits) (hid : card.id = exit.id) :
    ∃ status, t.IsClash status := by
  have hmem : exit.id ∈ (exitStatuses t).map exitId := by
    rw [← ids_placedExits t settings (Layout.of t settings mode).nodes]
    exact List.mem_map_of_mem hexit
  obtain ⟨status, hstatus, heq⟩ := List.mem_map.1 hmem
  have hreaches : t.Reaches card.id := mem_ids_of_iff.1 (List.mem_map_of_mem hcard)
  refine ⟨status, mem_exitStatuses_iff_choices.1 hstatus, ?_⟩
  rw [heq, ← hid]
  exact hreaches.hasNode

/-- The search and the catalog agree on an id unless a node and an exit are placed under it in
different places.  They agree on all ids if the review of the tree tells of no clash. -/
theorem position?_agrees (t : Tree) (settings : Config α) (mode : Mode) :
    let map := Layout.of t settings mode
    (∀ id, map.position? id = map.positions.get? id ↔
        ∀ card ∈ map.nodes, card.id = id → ∀ exit ∈ map.exits, exit.id = id →
          card.position = exit.position) ∧
      (t.lint.ofKind .exitClash = [] → ∀ id, map.position? id = map.positions.get? id) := by
  intro map
  have hagree : ∀ id, map.position? id = map.positions.get? id ↔
      ∀ card ∈ map.nodes, card.id = id → ∀ exit ∈ map.exits, exit.id = id →
        card.position = exit.position :=
    fun id => position?_eq_get?_positions_iff map id (nodup_ids_of t settings mode)
      (nodup_exitIds_of t settings mode)
  refine ⟨hagree, fun hlint id => (hagree id).2 ?_⟩
  intro card hcard hid exit hexit hexitId
  obtain ⟨status, hclash⟩ := exists_isClash hcard hexit (hid.trans hexitId.symm)
  exact absurd hclash (Tree.lint_exitClash_eq_nil_iff.1 hlint status)

end Placed

/-- A shop under the id at which an exit would be placed that leads out of it. -/
def shopfront : Tree :=
  (Tree.bare "shopfront" "exit_shop").withNode
    ((Node.line "exit_shop" "Keeper" "Come again!").withChoice
      (Choice.ending "leave" "Leave." "shop"))

/-- The review tells of the clash, and the catalog has lost the shop's position. -/
theorem not_position?_agrees_shopfront :
    let map := Layout.of shopfront (Config.standard : Config Float) .firstDiscovery
    map.nodes.map (fun card => (card.id, card.position)) = [("exit_shop", ⟨0, -75⟩)] ∧
      map.exits.map (fun exit => (exit.id, exit.position)) = [("exit_shop", ⟨400, 0⟩)] ∧
      map.position? "exit_shop" = some ⟨0, -75⟩ ∧
      map.positions.get? "exit_shop" = some ⟨400, 0⟩ ∧
      ¬ ∀ id, map.position? id = map.positions.get? id := by
  intro map
  have hposition : map.position? "exit_shop" = some ⟨0, -75⟩ := by decide +kernel
  have hentry : map.positions.get? "exit_shop" = some ⟨400, 0⟩ := by decide +kernel
  refine ⟨by decide +kernel, by decide +kernel, hposition, hentry, fun h => ?_⟩
  have hsame := (hposition.symm.trans (h "exit_shop")).trans hentry
  revert hsame
  decide +kernel

end Dialogue.Layout
