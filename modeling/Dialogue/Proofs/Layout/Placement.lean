import Dialogue.Layout.Basic
import Dialogue.Proofs.Layout.Discovery
import Dialogue.Proofs.Layout.Traversal
/-!
# What is placed

Placing neither loses a node nor makes one up: the cards of a layout are those of the nodes that can
be reached, in both modes, and the exits are those of the stored choices.
-/

namespace Dialogue.Layout

theorem le_foldl_levelCount (order : List (String × Nat)) (n : Nat) :
    n ≤ order.foldl (fun n entry => max n (entry.2 + 1)) n := by
  induction order generalizing n with
  | nil => exact Nat.le_refl n
  | cons entry rest ih =>
      rw [List.foldl_cons]
      exact Nat.le_trans (Nat.le_max_left n (entry.2 + 1)) (ih _)

/-- There are more levels than the level of any node. -/
theorem lt_foldl_levelCount {order : List (String × Nat)} {entry : String × Nat}
    (h : entry ∈ order) (n : Nat) :
    entry.2 < order.foldl (fun n entry => max n (entry.2 + 1)) n := by
  induction order generalizing n with
  | nil => exact absurd h List.not_mem_nil
  | cons first rest ih =>
      rw [List.foldl_cons]
      rcases List.mem_cons.1 h with rfl | hmem
      · exact Nat.le_trans (Nat.le_max_right n (entry.2 + 1)) (le_foldl_levelCount rest _)
      · exact ih hmem _

theorem mem_flatten_levels_iff {order : List (String × Nat)} {id : String} :
    id ∈ (levels order).flatten ↔ id ∈ order.map (·.1) := by
  simp only [levels, List.mem_flatten, List.mem_map, List.mem_range]
  constructor
  · rintro ⟨_, ⟨depth, -, rfl⟩, hid⟩
    obtain ⟨entry, hentry, rfl⟩ := List.mem_map.1 hid
    exact ⟨entry, (List.mem_filter.1 hentry).1, rfl⟩
  · rintro ⟨entry, hentry, rfl⟩
    refine ⟨_, ⟨entry.2, lt_foldl_levelCount hentry 0, rfl⟩, List.mem_map.2 ⟨entry, ?_, rfl⟩⟩
    exact List.mem_filter.2 ⟨hentry, decide_eq_true rfl⟩

theorem eq_of_mem_zipIdx_levels {order : List (String × Nat)} {ids : List String} {depth : Nat}
    (h : (ids, depth) ∈ (levels order).zipIdx) :
    ids = (order.filter fun entry => entry.2 = depth).map (·.1) := by
  have hget : (levels order)[depth]? = some ids := List.mem_zipIdx_iff_getElem?.1 h
  obtain ⟨_, rfl⟩ := List.getElem?_eq_some_iff.1 hget
  simp only [levels, List.getElem_map, List.getElem_range]

section Placing

variable {α : Type} [Coordinate α]

theorem length_stacked (config : Config α) (count : Nat) (above : Option α) (i : Nat)
    (heights : List α) : (stacked config count above i heights).length = heights.length := by
  induction heights generalizing above i with
  | nil => rfl
  | cons height heights ih =>
      unfold stacked
      simp only [List.length_cons, ih]

theorem length_packed (config : Config α) (heights : List α) :
    (packed config heights).length = heights.length := by
  have hlength := length_stacked config heights.length none 0 heights
  unfold packed
  cases heights with
  | nil => rfl
  | cons height heights =>
      -- a level with a card has a first and a last one, so the offset exists
      have hys : stacked config (height :: heights).length none 0 (height :: heights) ≠ [] := by
        rw [ne_eq, ← List.length_eq_zero_iff, hlength]
        simp
      have hlast := List.getLast?_eq_some_getLast (List.cons_ne_nil height heights)
      simp only [List.head?_eq_some_head hys, List.getLast?_eq_some_getLast hys, hlast,
        List.length_map, hlength]

theorem ids_placedLevel (t : Tree) (config : Config α) (depth : Nat) (ids : List String) :
    (placedLevel t config depth ids).map (·.id) = ids := by
  simp only [placedLevel, List.map_map]
  refine List.map_fst_zip ?_
  simp [length_packed]

theorem ids_placedNodes (t : Tree) (config : Config α) (order : List (String × Nat)) :
    (placedNodes t config order).map (·.id) = (levels order).flatten := by
  simp only [placedNodes, List.map_flatMap, ids_placedLevel]
  rw [List.flatMap_def, List.zipIdx_map_fst]

theorem depth_of_mem_placedLevel {t : Tree} {config : Config α} {depth : Nat} {ids : List String}
    {card : Card α} (h : card ∈ placedLevel t config depth ids) : card.depth = depth := by
  obtain ⟨entry, -, rfl⟩ := List.mem_map.1 h
  rfl

theorem id_of_mem_placedLevel {t : Tree} {config : Config α} {depth : Nat} {ids : List String}
    {card : Card α} (h : card ∈ placedLevel t config depth ids) : card.id ∈ ids := by
  rw [← ids_placedLevel t config depth ids]
  exact List.mem_map_of_mem h

theorem mem_order_of_mem_placedNodes {t : Tree} {config : Config α} {order : List (String × Nat)}
    {card : Card α} (h : card ∈ placedNodes t config order) : (card.id, card.depth) ∈ order := by
  obtain ⟨⟨ids, depth⟩, hlevel, hcard⟩ := List.mem_flatMap.1 h
  have hdepth : card.depth = depth := depth_of_mem_placedLevel hcard
  have hid := id_of_mem_placedLevel hcard
  rw [eq_of_mem_zipIdx_levels hlevel] at hid
  obtain ⟨entry, hentry, heq⟩ := List.mem_map.1 hid
  obtain ⟨hmem, hlast⟩ := List.mem_filter.1 hentry
  rw [hdepth, ← heq, ← of_decide_eq_true hlast]
  exact hmem

theorem statuses_placedExits (t : Tree) (config : Config α) (cards : List (Card α)) :
    (placedExits t config cards).map (·.status) = exitStatuses t := by
  simp only [placedExits, List.map_map]
  exact List.zipIdx_map_fst 0 (exitStatuses t)

end Placing

theorem mem_exitStatuses_iff {t : Tree} {status : String} :
    status ∈ exitStatuses t ↔
      ∃ key n c, (key, n) ∈ t.nodes.entries ∧ c ∈ n.choices ∧ c.exitStatus = some status := by
  simp only [exitStatuses, List.mem_eraseDups, List.mem_filterMap, Tree.choices, List.mem_flatMap,
    List.mem_map]
  constructor
  · rintro ⟨_, ⟨⟨key, n⟩, hn, c, hc, rfl⟩, hexit⟩
    exact ⟨key, n, c, hn, hc, hexit⟩
  · rintro ⟨key, n, c, hn, hc, hexit⟩
    exact ⟨_, ⟨(key, n), hn, c, hc, rfl⟩, hexit⟩

theorem mem_order_iff {t : Tree} {mode : Mode} {id : String} :
    id ∈ (order t mode).map (·.1) ↔ t.Reaches id := by
  cases mode with
  | firstDiscovery => exact mem_reachableIds_iff
  | compact => exact mem_longestPath_iff

theorem mem_ids_of_iff {α : Type} [Coordinate α] {t : Tree} {config : Config α} {mode : Mode}
    {id : String} : id ∈ (Layout.of t config mode).nodes.map (·.id) ↔ t.Reaches id := by
  rw [← @mem_order_iff t mode, ← mem_flatten_levels_iff, ← ids_placedNodes t config]
  rfl

theorem mem_statuses_of_iff {α : Type} [Coordinate α] {t : Tree} {config : Config α} {mode : Mode}
    {status : String} :
    status ∈ (Layout.of t config mode).exits.map (·.status) ↔ status ∈ exitStatuses t := by
  rw [← statuses_placedExits t config (Layout.of t config mode).nodes]
  rfl

end Dialogue.Layout
