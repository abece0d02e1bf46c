import Dialogue.Proofs.Layout.Placement
/-!
# A layout depends on what can be reached

Two trees that start alike, and store the same under every id that can be reached or is named there,
are walked alike step by step.  So their layouts have the same cards and the same edges.  The order in
which nodes are stored plays no part, nor do the nodes that cannot be reached.
-/

namespace Dialogue

/-- Whether another tree starts alike and stores the same, or nothing, under the start, under every id
that can be reached and under every id that a choice there names. -/
structure Tree.SameInReach (t u : Tree) : Prop where
  start : u.start = t.start
  opening : u.node? t.start = t.node? t.start
  reached : ∀ id, t.Reaches id → u.node? id = t.node? id
  named : ∀ id n c target, t.Reaches id → t.node? id = some n → c ∈ n.choices →
    target ∈ c.targets → u.node? target = t.node? target

variable {t u : Tree}

namespace Tree

theorem hasNode_congr {id : String} (h : u.node? id = t.node? id) :
    u.hasNode id = t.hasNode id := by
  have hcontains : u.nodes.contains id = t.nodes.contains id := congrArg Option.isSome h
  rw [hasNode, hasNode, hcontains]

namespace SameInReach

theorem isPlayable_eq (h : t.SameInReach u) : u.isPlayable = t.isPlayable := by
  rw [isPlayable, isPlayable, h.start, hasNode_congr h.opening]

theorem children_eq (h : t.SameInReach u) {id : String} (hid : t.Reaches id) :
    u.children id = t.children id := by
  unfold children
  rw [h.reached id hid]
  cases hn : t.node? id with
  | none => rfl
  | some n =>
      refine List.filter_congr fun target htarget => ?_
      obtain ⟨c, hc, hmem⟩ := List.mem_flatMap.1 htarget
      exact hasNode_congr (h.named id n c target hid hn hc hmem)

end SameInReach

end Tree

namespace Layout

/-! ## The walks -/

namespace Discovery

theorem step_of_stack_eq_nil {d : Discovery} (h : d.stack = []) : step t d = none := by
  rw [step, h]

theorem start_eq (h : t.SameInReach u) : start u = start t := by
  rw [start, start, h.isPlayable_eq, h.start]

theorem step_eq (h : t.SameInReach u) {d : Discovery} (hsound : Sound t d) :
    step u d = step t d := by
  cases hstack : d.stack with
  | nil => rw [step_of_stack_eq_nil hstack, step_of_stack_eq_nil hstack]
  | cons entry stack =>
      obtain ⟨id, depth⟩ := entry
      have hid : t.Reaches id := hsound.stack_reaches (id, depth) (hstack ▸ List.mem_cons_self)
      simp only [step, hstack, takeUp, h.children_eq hid]

theorem finish_eq (h : t.SameInReach u) : finish u = finish t := by
  have hend := step_of_stack_eq_nil (t := t) (finish_spec t).2
  have hend' := step_of_stack_eq_nil (t := u) (finish_spec u).2
  rw [finish, start_eq h] at hend' ⊢
  -- trees of different size give the walks different budgets, but both walks come to their end
  exact iterate_eq_of_agree sound_step (step_eq h) (sound_start t) hend hend'

end Discovery

namespace Traversal

theorem step_of_path_eq_nil {w : Traversal} (h : w.path = []) : step t w = none := by
  rw [step, h]

theorem start_eq (h : t.SameInReach u) : start u = start t := by
  cases hplayable : t.isPlayable with
  | true =>
      have hchildren := h.children_eq (Tree.reaches_start hplayable)
      simp only [start, h.isPlayable_eq, h.start, hchildren]
  | false => simp only [start, h.isPlayable_eq, hplayable, Bool.false_eq_true, if_false]

theorem step_eq (h : t.SameInReach u) {w : Traversal} (hsound : Sound t w) :
    step u w = step t w := by
  match hpath : w.path with
  | [] => rw [step_of_path_eq_nil hpath, step_of_path_eq_nil hpath]
  | (id, []) :: path => simp only [step, hpath]
  | (id, child :: more) :: path =>
      have htop : (id, child :: more) ∈ w.path := hpath ▸ List.mem_cons_self
      have hid : t.Reaches id := hsound.preorder_reaches id (hsound.path_met _ htop)
      have hchild := hid.child (hsound.path_children _ htop child List.mem_cons_self)
      simp only [step, hpath, h.children_eq hchild]

theorem finish_eq (h : t.SameInReach u) : finish u = finish t := by
  have hend := step_of_path_eq_nil (t := t) (finish_spec t).2
  have hend' := step_of_path_eq_nil (t := u) (finish_spec u).2
  rw [finish, start_eq h] at hend' ⊢
  exact iterate_eq_of_agree sound_step (step_eq h) (sound_start t) hend hend'

end Traversal

theorem order_eq (h : t.SameInReach u) (mode : Mode) : order u mode = order t mode := by
  cases mode with
  | firstDiscovery => rw [order, order, firstDiscovery, firstDiscovery, Discovery.finish_eq h]
  | compact => rw [order, order, longestPath, longestPath, Traversal.finish_eq h]

/-! ## Cards and edges -/

theorem reaches_of_mem_levels {mode : Mode} {ids : List String} {depth : Nat} {id : String}
    (hlevel : (ids, depth) ∈ (levels (order t mode)).zipIdx) (hid : id ∈ ids) : t.Reaches id := by
  rw [← @mem_order_iff t mode, ← mem_flatten_levels_iff]
  exact List.mem_flatten.2 ⟨ids, List.fst_mem_of_mem_zipIdx hlevel, hid⟩

section Placing

variable {α : Type} [Coordinate α]

theorem placedLevel_congr {ids : List String} (h : ∀ id ∈ ids, u.node? id = t.node? id)
    (settings : Config α) (depth : Nat) :
    placedLevel u settings depth ids = placedLevel t settings depth ids := by
  have hheights : (ids.map fun id => settings.height ((u.node? id).getD default)) =
      ids.map fun id => settings.height ((t.node? id).getD default) :=
    List.map_congr_left fun id hid => by rw [h id hid]
  rw [placedLevel, placedLevel, hheights]

theorem placedNodes_eq (h : t.SameInReach u) (settings : Config α) (mode : Mode) :
    placedNodes u settings (order u mode) = placedNodes t settings (order t mode) := by
  rw [placedNodes, placedNodes, order_eq h]
  refine List.flatMap_congr fun level hlevel => ?_
  exact placedLevel_congr (fun id hid => h.reached id (reaches_of_mem_levels hlevel hid)) settings _

theorem drawnEdges_congr {ids : List String} (h : ∀ id ∈ ids, u.node? id = t.node? id) :
    drawnEdges u ids = drawnEdges t ids :=
  List.flatMap_congr fun id hid => by rw [h id hid]

/-- Two trees that start alike and agree on all that can be reached or is named there have the same
reachable nodes in the same order, and in both modes layouts with the same cards and the same edges. -/
theorem layout_eq_of_sameInReach (h : t.SameInReach u) (settings : Config α) (mode : Mode) :
    reachableIds u = reachableIds t ∧
      (Layout.of u settings mode).nodes = (Layout.of t settings mode).nodes ∧
      (Layout.of u settings mode).edges = (Layout.of t settings mode).edges := by
  have hnodes : (Layout.of u settings mode).nodes = (Layout.of t settings mode).nodes :=
    placedNodes_eq h settings mode
  refine ⟨?_, hnodes, ?_⟩
  · exact congrArg (List.map (·.1)) (order_eq h .firstDiscovery)
  · change drawnEdges u ((Layout.of u settings mode).nodes.map (·.id)) =
      drawnEdges t ((Layout.of t settings mode).nodes.map (·.id))
    rw [hnodes]
    exact drawnEdges_congr fun id hid => h.reached id (mem_ids_of_iff.1 hid)

end Placing

def island : Tree :=
  (Tree.bare "island" "dock").withNode
      ((Node.line "dock" "Pilot" "Where to?").withChoice
          ((Choice.leading "row" "Row out." "reef").withDetour "storm" (Gate.free.require "wind"))
        |>.withChoice (Choice.leading "dive" "Dive." ""))
    |>.withNode ((Node.line "cave" "Bat" "").withChoice (Choice.leading "out" "Out." "dock"))
    |>.withNode
      ((Node.line "reef" "Pilot" "Rocks!").withChoice (Choice.leading "turn" "Turn." "dock"))

/-- The island after it has been written again: under another name, with the reef in front of the
dock, and with a wreck in place of the cave. -/
def rewrittenIsland : Tree :=
  (Tree.bare "the island" "dock").withCharacter "pilot" ⟨"Pilot", "calm", .empty⟩
    |>.withNode
      ((Node.line "reef" "Pilot" "Rocks!").withChoice (Choice.leading "turn" "Turn." "dock"))
    |>.withNode ((Node.line "wreck" "Ghost" "").withChoice (Choice.leading "up" "Up." "reef"))
    |>.withNode
      ((Node.line "dock" "Pilot" "Where to?").withChoice
          ((Choice.leading "row" "Row out." "reef").withDetour "storm" (Gate.free.require "wind"))
        |>.withChoice (Choice.leading "dive" "Dive." ""))

theorem layout_eq_at_island :
    island.SameInReach rewrittenIsland ∧
      reachableIds rewrittenIsland = reachableIds island ∧
      (Layout.of rewrittenIsland (Config.standard : Config Float) .compact).nodes =
        (Layout.of island (Config.standard : Config Float) .compact).nodes ∧
      (Layout.of rewrittenIsland (Config.standard : Config Float) .compact).edges =
        (Layout.of island (Config.standard : Config Float) .compact).edges := by
  have hreached : ∀ id ∈ reachableIds island,
      rewrittenIsland.node? id = island.node? id := by decide +kernel
  have hnamed : ∀ id ∈ reachableIds island, ∀ n ∈ (island.node? id).toList, ∀ c ∈ n.choices,
      ∀ target ∈ c.targets, rewrittenIsland.node? target = island.node? target := by
    decide +kernel
  have h : island.SameInReach rewrittenIsland :=
    { start := rfl
      opening := by decide +kernel
      reached := fun id hid => hreached id (mem_reachableIds_iff.2 hid)
      named := fun id n c target hid hn hc htarget =>
        hnamed id (mem_reachableIds_iff.2 hid) n (Option.mem_toList.2 hn) c hc target htarget }
  exact ⟨h, layout_eq_of_sameInReach h _ .compact⟩

end Layout

end Dialogue
