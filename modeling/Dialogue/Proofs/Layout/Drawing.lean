import Dialogue.Proofs.Layout.Edge
import Dialogue.Proofs.Layout.Position
/-!
# What is drawn

An exit is drawn for each status with which a choice of the tree ends, whether or not the choice can
be reached.  Edges are drawn choice by choice: to the choice's exit, or else to those of its detours
that are placed, or else to its own target if that is placed.  So an edge leads to exactly one card or
to exactly one exit.
-/

namespace Dialogue.Layout

/-! ## Edges of a choice -/

structure Edge.IsOf (e : Edge) (c : Choice) (kind : EdgeKind) (target : String) : Prop where
  label : e.label = c.text
  locked : e.locked = isLocked c
  kind : e.kind = kind
  target : e.target = target

/-- Which edges are drawn for a choice.  An exit goes before detours, and detours go before the
choice's own target, even if none of them is placed. -/
inductive DrawnFor {α : Type} (l : Layout α) (c : Choice) : List Edge → Prop where
  | exit {status : String} {e : Edge} (hexit : c.exitStatus = some status)
      (he : e.IsOf c .exit (exitId status)) : DrawnFor l c [e]
  | detours {edges : List Edge} (hexit : c.exitStatus = none) (hways : c.otherWays ≠ [])
      (he : List.Forall₂ (fun detour e => Edge.IsOf e c .detour detour.target)
        (c.otherWays.filter fun detour => l.contains detour.target) edges) : DrawnFor l c edges
  | choice {e : Edge} (hexit : c.exitStatus = none) (hways : c.otherWays = [])
      (hplaced : l.contains c.target = true) (he : e.IsOf c .choice c.target) : DrawnFor l c [e]
  | nothing (hexit : c.exitStatus = none) (hways : c.otherWays = [])
      (hplaced : l.contains c.target = false) : DrawnFor l c []

section Drawing

variable {α : Type} (l : Layout α)

theorem contains_ids : (l.nodes.map (·.id)).contains = l.contains := by
  funext id
  rw [Bool.eq_iff_iff, contains, node?, List.find?_isSome]
  simp only [List.contains_eq_mem, decide_eq_true_eq, List.mem_map]

theorem drawnFor_choiceEdges (source : String) (c : Choice) :
    DrawnFor l c (choiceEdges l.contains source c) := by
  unfold choiceEdges
  cases hexit : c.exitStatus with
  | some status => exact .exit hexit ⟨rfl, rfl, rfl, rfl⟩
  | none =>
      cases hways : c.otherWays with
      | nil =>
          cases hplaced : l.contains c.target with
          | true => exact .choice hexit hways hplaced ⟨rfl, rfl, rfl, rfl⟩
          | false => exact .nothing hexit hways hplaced
      | cons detour rest =>
          refine .detours hexit (hways ▸ List.cons_ne_nil detour rest) ?_
          simp only [hways, List.isEmpty_cons, Bool.false_eq_true, if_false, List.filter_map,
            List.map_map]
          exact List.forall₂_map_right_iff.2 (List.forall₂_same.2 fun _ _ => ⟨rfl, rfl, rfl, rfl⟩)

/-- An edge of a choice leads to the choice's exit, or to something that is placed. -/
theorem DrawnFor.target {l : Layout α} {c : Choice} {edges : List Edge} {e : Edge}
    (h : DrawnFor l c edges) (he : e ∈ edges) :
    (e.kind = .exit ∧ ∃ status, c.exitStatus = some status ∧ e.target = exitId status) ∨
      (e.kind ≠ .exit ∧ l.contains e.target = true) := by
  cases h with
  | @exit status e' hexit hof =>
      obtain rfl := List.mem_singleton.1 he
      exact .inl ⟨hof.kind, status, hexit, hof.target⟩
  | detours hexit hways hall =>
      obtain ⟨detour, hdetour, hof⟩ := exists_mem_of_forall₂ hall he
      rw [hof.kind, hof.target]
      exact .inr ⟨by decide, (List.mem_filter.1 hdetour).2⟩
  | choice hexit hways hplaced hof =>
      obtain rfl := List.mem_singleton.1 he
      rw [hof.kind, hof.target]
      exact .inr ⟨by decide, hplaced⟩
  | nothing hexit hways hplaced => exact absurd he List.not_mem_nil

end Drawing

/-! ## One card for an id -/

theorem filter_eq_singleton_of_nodup {β : Type} {key : β → String} {cards : List β}
    (h : (cards.map key).Nodup) {card : β} (hcard : card ∈ cards) :
    (cards.filter fun other => key other = key card) = [card] := by
  obtain ⟨before, behind, rfl⟩ := List.append_of_mem hcard
  rw [List.map_append, List.map_cons, List.nodup_middle, List.nodup_cons, ← List.map_append] at h
  have hother : ∀ other ∈ before ++ behind, ¬ decide (key other = key card) = true :=
    fun other hmem heq => h.1 (List.mem_map.2 ⟨other, hmem, of_decide_eq_true heq⟩)
  have hbefore := List.filter_eq_nil_iff.2 fun other hmem =>
    hother other (List.mem_append_left behind hmem)
  have hbehind := List.filter_eq_nil_iff.2 fun other hmem =>
    hother other (List.mem_append_right before hmem)
  rw [List.filter_append, List.filter_cons_of_pos (by simp), hbefore, hbehind, List.nil_append]

section Placed

variable {α : Type} [Coordinate α] {t : Tree} {settings : Config α} {mode : Mode}

/-! ## Exits -/

theorem getElem?_placedExits (t : Tree) (settings : Config α) (cards : List (Card α)) (k : Nat)
    {exit : ExitCard α} (h : (placedExits t settings cards)[k]? = some exit) :
    exit.id = exitId exit.status ∧
      exit.position.y = Coordinate.ofCount k * settings.exitSpacing := by
  rw [placedExits, List.getElem?_map, List.getElem?_zipIdx] at h
  obtain ⟨entry, hentry, rfl⟩ := Option.map_eq_some_iff.1 h
  obtain ⟨status, -, rfl⟩ := Option.map_eq_some_iff.1 hentry
  simp only [Nat.zero_add, and_self]

/-! ## Edges -/

theorem exists_node_of_mem_nodes {card : Card α} (h : card ∈ (Layout.of t settings mode).nodes) :
    ∃ n, t.node? card.id = some n := by
  have hreaches : t.Reaches card.id := mem_ids_of_iff.1 (List.mem_map_of_mem h)
  obtain ⟨-, n, hn⟩ := Tree.hasNode_iff.1 hreaches.hasNode
  exact ⟨n, hn⟩

theorem edges_eq_drawnEdges (t : Tree) (settings : Config α) (mode : Mode) :
    (Layout.of t settings mode).edges =
      drawnEdges t ((Layout.of t settings mode).nodes.map (·.id)) := rfl

def edgeRow (l : Layout α) (n : Node) : List (List Edge) :=
  n.choices.map (choiceEdges l.contains n.id)

/-- The edges are drawn card by card, and for each card choice by choice. -/
theorem exists_rows (t : Tree) (settings : Config α) (mode : Mode) :
    let map := Layout.of t settings mode
    ∃ rows : List (List (List Edge)), map.edges = rows.flatten.flatten ∧
      List.Forall₂ (fun card row => ∃ n, t.node? card.id = some n ∧
        List.Forall₂ (DrawnFor map) n.choices row) map.nodes rows := by
  intro map
  refine ⟨map.nodes.map fun card => ((t.node? card.id).map (edgeRow map)).getD [], ?_, ?_⟩
  · rw [edges_eq_drawnEdges, drawnEdges, contains_ids, List.flatMap_map, List.flatMap_def,
      List.flatten_flatten, List.map_map]
    refine congrArg List.flatten (List.map_congr_left fun card _ => ?_)
    rw [Function.comp_apply]
    cases t.node? card.id with
    | none => rfl
    | some n => exact List.flatMap_def
  · refine List.forall₂_map_right_iff.2 (List.forall₂_same.2 fun card hcard => ?_)
    obtain ⟨n, hn⟩ := exists_node_of_mem_nodes hcard
    refine ⟨n, hn, ?_⟩
    rw [hn]
    exact List.forall₂_map_right_iff.2 (List.forall₂_same.2 fun c _ =>
      drawnFor_choiceEdges map n.id c)

/-! ## Where edges lead -/

theorem exists_drawnFor {e : Edge} (h : e ∈ (Layout.of t settings mode).edges) :
    ∃ key n c edges, (key, n) ∈ t.nodes.entries ∧ c ∈ n.choices ∧
      DrawnFor (Layout.of t settings mode) c edges ∧ e ∈ edges := by
  rw [edges_eq_drawnEdges] at h
  obtain ⟨id, n, c, -, hn, hc, hmem⟩ := exists_mem_choiceEdges h
  rw [contains_ids] at hmem
  exact ⟨id, n, c, _, Catalog.get?_eq_some_iff.1 hn, hc, drawnFor_choiceEdges _ n.id c, hmem⟩

theorem exists_exit_of_mem_edges {e : Edge} (h : e ∈ (Layout.of t settings mode).edges)
    (hkind : e.kind = .exit) :
    ∃ exit, ((Layout.of t settings mode).exits.filter fun exit => exit.id = e.target) = [exit] := by
  obtain ⟨key, n, c, edges, hn, hc, hdrawn, he⟩ := exists_drawnFor h
  rcases hdrawn.target he with ⟨-, status, hstatus, htarget⟩ | ⟨hnot, -⟩
  · have hmem : e.target ∈ (Layout.of t settings mode).exits.map (·.id) := by
      have hids : (Layout.of t settings mode).exits.map (·.id) = (exitStatuses t).map exitId :=
        ids_placedExits t settings _
      rw [hids, htarget]
      exact List.mem_map_of_mem (mem_exitStatuses_iff.2 ⟨key, n, c, hn, hc, hstatus⟩)
    obtain ⟨exit, hexit, hid⟩ := List.mem_map.1 hmem
    rw [← hid]
    exact ⟨exit, filter_eq_singleton_of_nodup (nodup_exitIds_of t settings mode) hexit⟩
  · exact absurd hkind hnot

theorem exists_card_of_mem_edges_of_ne {e : Edge} (h : e ∈ (Layout.of t settings mode).edges)
    (hkind : e.kind ≠ .exit) :
    ∃ card, ((Layout.of t settings mode).nodes.filter fun card => card.id = e.target) = [card] := by
  obtain ⟨key, n, c, edges, hn, hc, hdrawn, he⟩ := exists_drawnFor h
  rcases hdrawn.target he with ⟨hexit, -⟩ | ⟨-, hplaced⟩
  · exact absurd hexit hkind
  · have hmem : e.target ∈ (Layout.of t settings mode).nodes.map (·.id) :=
      mem_ids_of_iff.2 (contains_of_iff.1 hplaced)
    obtain ⟨card, hcard, hid⟩ := List.mem_map.1 hmem
    rw [← hid]
    exact ⟨card, filter_eq_singleton_of_nodup (nodup_ids_of t settings mode) hcard⟩

structure Draws (t : Tree) (settings : Config α) (l : Layout α) : Prop where
  statuses : l.exits.map (·.status) = (t.choices.filterMap (·.2.exitStatus)).eraseDups
  /-- Exit number `k` has the status in front of whose first choice `k` other statuses stand. -/
  status_at : ∀ k status, l.exits[k]?.map (·.status) = some status ↔
    ∃ before behind, t.choices.filterMap (·.2.exitStatus) = before ++ status :: behind ∧
      status ∉ before ∧ before.eraseDups.length = k
  exit_at : ∀ k exit, l.exits[k]? = some exit →
    exit.id = exitId exit.status ∧ exit.position.y = Coordinate.ofCount k * settings.exitSpacing
  exitIds_nodup : (l.exits.map (·.id)).Nodup
  edges : ∃ rows : List (List (List Edge)), l.edges = rows.flatten.flatten ∧
    List.Forall₂ (fun card row => ∃ n, t.node? card.id = some n ∧
      List.Forall₂ (DrawnFor l) n.choices row) l.nodes rows
  exit_target : ∀ e ∈ l.edges, e.kind = .exit →
    ∃ exit, (l.exits.filter fun exit => exit.id = e.target) = [exit]
  node_target : ∀ e ∈ l.edges, e.kind ≠ .exit →
    ∃ card, (l.nodes.filter fun card => card.id = e.target) = [card]

/-- The exits of a layout are those of the whole tree, and every edge leads to what is drawn. -/
theorem draws_of (t : Tree) (settings : Config α) (mode : Mode) :
    Draws t settings (Layout.of t settings mode) where
  statuses := statuses_placedExits t settings _
  status_at := by
    intro k status
    have hstatuses : (Layout.of t settings mode).exits.map (·.status) = exitStatuses t :=
      statuses_placedExits t settings _
    rw [← List.getElem?_map, hstatuses]
    exact getElem?_eraseDups_iff
  exit_at := fun k _ hexit => getElem?_placedExits t settings _ k hexit
  exitIds_nodup := nodup_exitIds_of t settings mode
  edges := exists_rows t settings mode
  exit_target := fun _ he hkind => exists_exit_of_mem_edges he hkind
  node_target := fun _ he hkind => exists_card_of_mem_edges_of_ne he hkind

end Placed

end Dialogue.Layout
