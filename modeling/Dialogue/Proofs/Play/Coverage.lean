import Dialogue.Proofs.Layout.Placement
import Dialogue.Proofs.Play.Step
import Dialogue.Proofs.Review.Findings
/-!
# The map covers play

Play moves by gates and by what is written in the story, the walks through the graph by lists of
children only.  Every move of play is an edge of that graph, so a run stays on what is placed.
-/

namespace Dialogue

namespace Session

/-- The session plays this tree, stands where the graph leads, and has ended by no exit that the
tree does not have. -/
structure OnMap (t : Tree) (s : Session) : Prop where
  tree_eq : s.tree = t
  reaches : t.Reaches s.snapshot.node
  exit_mem : ∀ status, s.snapshot.status = .ended (.exit status) → status ∈ Layout.exitStatuses t

theorem onMap_start {t : Tree} (h : t.isPlayable = true) (config : Config) :
    OnMap t (start t config) where
  tree_eq := rfl
  reaches := by
    rw [start, Snapshot.node_initial]
    exact Tree.reaches_start h
  exit_mem := by
    rw [start, Snapshot.status_initial_of_isPlayable config h]
    intro status heq
    cases heq

theorem destination_mem_children {s : Session} {c : Choice} {n : Node} {w : World}
    (hc : c ∈ s.choices) (hfound : s.tree.target? (c.destination w) = some n) :
    c.destination w ∈ s.tree.children s.snapshot.node := by
  obtain ⟨current, hcurrent, hmem⟩ := mem_choices_iff.1 hc
  exact Tree.mem_children_of_mem_targets hcurrent hmem (c.destination_mem_targets w)
    (Tree.hasNode_of_target? hfound)

theorem exitStatus_mem_exitStatuses {s : Session} {c : Choice} {status : String}
    (hc : c ∈ s.choices) (hexit : c.exitStatus = some status) :
    status ∈ Layout.exitStatuses s.tree := by
  obtain ⟨n, hn, hmem⟩ := mem_choices_iff.1 hc
  exact Layout.mem_exitStatuses_iff.2 ⟨_, n, c, Tree.mem_entries_of_node? hn, hmem, hexit⟩

theorem onMap_taken {t : Tree} {s s' : Session} {c : Choice} {outcome : Outcome}
    (h : OnMap t s) (hc : c ∈ s.choices) (htaken : Taken s c outcome s') : OnMap t s' := by
  obtain ⟨rfl, hreaches, hexits⟩ := h
  cases htaken with
  | exit hexit =>
      refine ⟨rfl, hreaches, fun status heq => ?_⟩
      cases heq
      exact exitStatus_mem_exitStatuses hc hexit
  | lost hexit htarget hlost =>
      refine ⟨rfl, hreaches, fun status heq => ?_⟩
      cases heq
  | advanced hexit htarget hfound =>
      subst htarget
      exact ⟨rfl, hreaches.child (destination_mem_children hc hfound), hexits⟩

theorem onMap_performed {t : Tree} {s s' : Session} {op : Op} {answer : Answer}
    (h : OnMap t s) (hperformed : Performed s op answer s') : OnMap t s' := by
  cases hperformed with
  | taken hactive hpicked hopen htaken =>
      exact onMap_taken h (mem_choices_of_picked? hpicked) htaken
  | refused hop refusal => exact h
  | edited hedit => exact ⟨h.tree_eq, h.reaches, h.exit_mem⟩
  | reset =>
      rw [h.tree_eq]
      exact onMap_start h.reaches.1 s.config

theorem onMap_run {t : Tree} (h : t.isPlayable = true) (config : Config) (ops : List Op) :
    OnMap t ((start t config).run ops).2 :=
  run_keeps onMap_performed (onMap_start h config) ops

/-- The graph view covers every run: the node where a run stands has been found by the walk, has a
card in both modes and is not reported as out of reach, and an exit by which a run ended has a card
as well. -/
theorem layout_covers_run {α : Type} [Layout.Coordinate α] {t : Tree} (h : t.isPlayable = true)
    (config : Config) (settings : Layout.Config α) (mode : Layout.Mode) (ops : List Op) :
    let s := ((start t config).run ops).2
    let map := Layout.of t settings mode
    s.snapshot.node ∈ Layout.reachableIds t ∧
      (∃ card ∈ map.nodes, card.id = s.snapshot.node) ∧
      (∀ issue ∈ t.lint.issues, issue.kind = .unreachable → issue.node ≠ some s.snapshot.node) ∧
      ∀ status, s.snapshot.status = .ended (.exit status) →
        ∃ exit ∈ map.exits, exit.status = status := by
  intro s map
  obtain ⟨-, hreaches, hexits⟩ := onMap_run h config ops
  have hfound : s.snapshot.node ∈ Layout.reachableIds t := Layout.mem_reachableIds_iff.2 hreaches
  refine ⟨hfound, List.mem_map.1 (Layout.mem_ids_of_iff.2 hreaches), ?_, ?_⟩
  · intro issue hissue hkind heq
    obtain ⟨node, hnode, hnot⟩ := Tree.not_mem_reachableIds_of_lint hissue hkind
    rw [heq] at hnode
    exact hnot (Option.some.inj hnode ▸ hfound)
  · intro status heq
    exact List.mem_map.1 (Layout.mem_statuses_of_iff.2 (hexits status heq))

def ferry : Tree :=
  (Tree.bare "ferry" "near").withNode
      ((Node.line "near" "Ferryman" "All aboard.").withChoice
          ((Choice.leading "cross" "Cross." "far").withDetour "swamp" (Gate.free.require "freight")))
    |>.withNode
      ((Node.line "far" "Ferryman" "And back?").withChoice (Choice.leading "cross" "Cross." "near")
        |>.withChoice (Choice.ending "land" "Go ashore." "landed"))
    |>.withNode (Node.line "swamp" "Ferryman" "Swim!")
    |>.withNode (Node.line "bank" "Heron" "")

theorem layout_covers_run_at_ferry :
    ferry.isPlayable = true ∧
      let s := ((start ferry .bare).run
        [.choose 0, .apply "cross", .choose 3, .apply "cross", .apply "land"]).2
      let map := Layout.of ferry (Layout.Config.standard : Layout.Config Float) .compact
      s.snapshot.node ∈ Layout.reachableIds ferry ∧
        (∃ card ∈ map.nodes, card.id = s.snapshot.node) ∧
        (∀ issue ∈ ferry.lint.issues,
          issue.kind = .unreachable → issue.node ≠ some s.snapshot.node) ∧
        ∀ status, s.snapshot.status = .ended (.exit status) →
          ∃ exit ∈ map.exits, exit.status = status := by
  have h : ferry.isPlayable = true := by decide
  exact ⟨h, layout_covers_run h .bare _ .compact _⟩

end Session

end Dialogue
