import Dialogue.Proofs.Play.Step
import Mathlib.Data.List.Chain
/-!
# The transcript is a walk

A session moves and writes down a line in the same step, or does neither.  If nodes are stored under
their own ids, the transcript is therefore a walk through the tree: it begins at the start, a choice
of the node of each line leads to the next one, and the last line stands where the session stands.
-/

namespace Dialogue

namespace Tree

def NamesNodes (t : Tree) : Prop := ∀ key n, (key, n) ∈ t.nodes.entries → n.id = key

/-- A line follows another: a choice of the other's node, which is no exit, leads to its node. -/
def Follows (t : Tree) (line next : Message) : Prop :=
  ∃ n c, t.node? line.node = some n ∧ c ∈ n.choices ∧ c.exitStatus = none ∧
    next.via = some c.text ∧ next.node ∈ c.targets

structure IsWalk (t : Tree) (lines : List Message) (node : String) : Prop where
  opening : ∃ first, lines.head? = some first ∧ first.node = t.start ∧ first.via = none
  steps : lines.IsChain t.Follows
  arrival : ∃ last, lines.getLast? = some last ∧ last.node = node

variable {t : Tree}

theorem NamesNodes.id_of_node? (h : t.NamesNodes) {id : String} {n : Node}
    (hn : t.node? id = some n) : n.id = id :=
  h id n (mem_entries_of_node? hn)

theorem isWalk_singleton {line : Message} (hnode : line.node = t.start) (hvia : line.via = none) :
    t.IsWalk [line] t.start where
  opening := ⟨line, rfl, hnode, hvia⟩
  steps := List.isChain_singleton line
  arrival := ⟨line, rfl, hnode⟩

theorem IsWalk.concat {lines : List Message} {node target : String} {next : Message}
    (h : t.IsWalk lines node) (hnode : next.node = target)
    (hnext : ∀ last, last.node = node → t.Follows last next) :
    t.IsWalk (lines ++ [next]) target where
  opening := by
    obtain ⟨first, hfirst, hstart⟩ := h.opening
    exact ⟨first, by rw [List.head?_append, hfirst]; rfl, hstart⟩
  steps := by
    obtain ⟨last, hlast, harrived⟩ := h.arrival
    refine h.steps.append (List.isChain_singleton next) fun line hline line' hline' => ?_
    cases hline'
    rw [hlast] at hline
    cases hline
    exact hnext last harrived
  arrival := ⟨next, List.getLast?_concat, hnode⟩

end Tree

namespace Session

structure OnWalk (t : Tree) (s : Session) : Prop where
  tree_eq : s.tree = t
  walk : t.IsWalk s.snapshot.transcript s.snapshot.node

theorem onWalk_start {t : Tree} (hids : t.NamesNodes) (hstart : t.startNode? ≠ none)
    (config : Config) : OnWalk t (start t config) := by
  obtain ⟨n, hn⟩ := Option.ne_none_iff_exists'.1 hstart
  refine ⟨rfl, ?_⟩
  rw [start, Snapshot.node_initial]
  unfold Snapshot.initial
  rw [hn]
  exact Tree.isWalk_singleton (hids.id_of_node? hn) rfl

theorem onWalk_taken {t : Tree} (hids : t.NamesNodes) {s s' : Session} {c : Choice}
    {outcome : Outcome} (h : OnWalk t s) (hc : c ∈ s.choices) (htaken : Taken s c outcome s') :
    OnWalk t s' := by
  obtain ⟨rfl, hwalk⟩ := h
  cases htaken with
  | exit hexit => exact ⟨rfl, hwalk⟩
  | lost hexit htarget hlost => exact ⟨rfl, hwalk⟩
  | @advanced target next hexit htarget hfound =>
      obtain ⟨n, hn, hmem⟩ := mem_choices_iff.1 hc
      have hid : next.id = target := hids.id_of_node? (Tree.target?_eq_some_iff.1 hfound).2
      refine ⟨rfl, hwalk.concat hid fun last hlast => ⟨n, c, hlast ▸ hn, hmem, hexit, rfl, ?_⟩⟩
      show next.id ∈ c.targets
      rw [hid, htarget]
      exact c.destination_mem_targets _

theorem onWalk_performed {t : Tree} (hids : t.NamesNodes) (hstart : t.startNode? ≠ none)
    {s s' : Session} {op : Op} {answer : Answer} (h : OnWalk t s)
    (hperformed : Performed s op answer s') : OnWalk t s' := by
  cases hperformed with
  | taken hactive hpicked hopen htaken =>
      exact onWalk_taken hids h (mem_choices_of_picked? hpicked) htaken
  | refused hop refusal => exact h
  | edited hedit => exact ⟨h.tree_eq, h.walk⟩
  | reset =>
      rw [h.tree_eq]
      exact onWalk_start hids hstart s.config

/-- The session plays this tree, has ended without a line, and has nothing to go back to. -/
structure Silent (t : Tree) (s : Session) : Prop where
  tree_eq : s.tree = t
  ended : s.snapshot.status ≠ .active
  transcript_eq : s.snapshot.transcript = []

theorem silent_start {t : Tree} (h : t.startNode? = none) (config : Config) :
    Silent t (start t config) := by
  refine ⟨rfl, ?_, ?_⟩ <;> simp [start, Snapshot.initial, h]

theorem silent_performed {t : Tree} (hstart : t.startNode? = none) {s s' : Session} {op : Op}
    {answer : Answer} (h : Silent t s) (hperformed : Performed s op answer s') : Silent t s' := by
  cases hperformed with
  | taken hactive hpicked hopen htaken => exact absurd hactive h.ended
  | refused hop refusal => exact h
  | edited hedit => exact ⟨h.tree_eq, h.ended, h.transcript_eq⟩
  | reset =>
      rw [h.tree_eq]
      exact silent_start hstart s.config

/-- In a tree that stores its nodes under their own ids, the transcript of every run is a walk from
the start to where the session stands, and is empty if there is no start. -/
theorem transcript_is_walk {t : Tree} (hids : t.NamesNodes) (config : Config) (ops : List Op) :
    let s := ((start t config).run ops).2
    (t.startNode? = none → s.snapshot.transcript = []) ∧
      (t.startNode? ≠ none → t.IsWalk s.snapshot.transcript s.snapshot.node) := by
  refine ⟨fun hstart => ?_, fun hstart => ?_⟩
  · exact (run_keeps (silent_performed hstart) (silent_start hstart config) ops).transcript_eq
  · exact (run_keeps (onWalk_performed hids hstart) (onWalk_start hids hstart config) ops).walk

/-- A maze with a loop, a trapdoor that opens for those who pull the lever, and a way out. -/
def maze : Tree :=
  (Tree.bare "maze" "hall").withNode
      ((Node.line "hall" "Echo" "Halls everywhere.").withChoice
          (((Choice.leading "lever" "Pull the lever." "hall").withFlagChanges ["pulled"] []).withDetour
            "cellar" (Gate.free.require "pulled"))
        |>.withChoice (Choice.leading "stair" "Take the stair." "attic"))
    |>.withNode
      ((Node.line "cellar" "Echo" "Dark.").withChoice (Choice.leading "climb" "Climb up." "hall")
        |>.withChoice (Choice.ending "dig" "Dig." "escaped"))

theorem transcript_is_walk_at_maze :
    maze.NamesNodes ∧ maze.startNode? ≠ none ∧
      let s := ((start maze .bare).run
        [.choose 0, .setFlag "rope", .apply "climb", .choose 9, .apply "lever", .apply "dig",
          .choose 0]).2
      maze.IsWalk s.snapshot.transcript s.snapshot.node := by
  have hids : maze.NamesNodes := by
    intro key n hn
    have hall : ∀ entry ∈ maze.nodes.entries, entry.2.id = entry.1 := by decide +kernel
    exact hall _ hn
  have hstart : maze.startNode? ≠ none := by decide +kernel
  exact ⟨hids, hstart, (transcript_is_walk hids .bare _).2 hstart⟩

end Session

end Dialogue
