import Dialogue.Proofs.Play.Step
import Dialogue.Proofs.Review.Findings
/-!
# What the review certifies for play

If the review of a tree reports no missing start and no choice or detour that leads to no node, then
a conversation never runs into a node that does not exist, whatever is done with it.
-/

namespace Dialogue

structure Tree.TargetsExist (t : Tree) : Prop where
  start : t.isPlayable = true
  targets : ∀ key n c, (key, n) ∈ t.nodes.entries → c ∈ n.choices → c.exitStatus = none →
    ∀ target ∈ c.targets, t.hasNode target = true

namespace Tree

theorem targetsExist_of_lint {t : Tree} (hstart : t.lint.ofKind .missingStart = [])
    (hchoice : t.lint.ofKind .danglingChoice = [])
    (hdetour : t.lint.ofKind .danglingDetour = []) : t.TargetsExist where
  start := isPlayable_of_lint hstart
  targets := by
    intro key n c hn hc hexit target htarget
    rcases List.mem_cons.1 htarget with rfl | hother
    · have hdangling := isDangling_of_lint hchoice hn hc
      rw [← Bool.not_eq_true, isDangling_iff] at hdangling
      simpa [hexit] using hdangling
    · obtain ⟨d, hd, rfl⟩ := List.mem_map.1 hother
      exact hasNode_detour_of_lint hdetour hn hc hd

end Tree

namespace Session

/-- A choice that is offered at a node of such a tree finds a node, whatever the state of the story
is after the choice. -/
theorem target?_destination_ne_none {s : Session} (h : s.tree.TargetsExist) {c : Choice}
    (hc : c ∈ s.choices) (hexit : c.exitStatus = none) (w : World) :
    s.tree.target? (c.destination w) ≠ none := by
  obtain ⟨n, hn, hmem⟩ := mem_choices_iff.1 hc
  have hentry := Tree.mem_entries_of_node? hn
  exact Tree.target?_ne_none
    (h.targets _ n c hentry hmem hexit _ (c.destination_mem_targets w))

def OnTrack (t : Tree) (s : Session) : Prop :=
  s.tree = t ∧ ∀ node, s.snapshot.status ≠ .ended (.missingTarget node)

theorem onTrack_start {t : Tree} (h : t.isPlayable = true) (config : Config) :
    OnTrack t (start t config) := by
  refine ⟨rfl, fun node => ?_⟩
  have hactive := Snapshot.status_initial_of_isPlayable config h
  simp [start, hactive]

theorem onTrack_taken {t : Tree} (ht : t.TargetsExist) {s s' : Session} {c : Choice}
    {outcome : Outcome} (h : OnTrack t s) (hc : c ∈ s.choices) (htaken : Taken s c outcome s') :
    (∀ node, outcome ≠ .ended (.missingTarget node)) ∧ OnTrack t s' := by
  obtain ⟨rfl, hstatus⟩ := h
  cases htaken with
  | exit hexit => exact ⟨by simp, rfl, by simp⟩
  | lost hexit htarget hlost =>
      subst htarget
      exact absurd hlost (target?_destination_ne_none ht hc hexit _)
  | advanced hexit htarget hfound => exact ⟨by simp, rfl, hstatus⟩

theorem onTrack_performed {t : Tree} (ht : t.TargetsExist) {s s' : Session} {op : Op}
    {answer : Answer} (h : OnTrack t s) (hperformed : Performed s op answer s') :
    (∀ node, answer ≠ .taken (.ended (.missingTarget node))) ∧ OnTrack t s' := by
  cases hperformed with
  | taken hactive hpicked hopen htaken =>
      obtain ⟨houtcome, hnext⟩ := onTrack_taken ht h (mem_choices_of_picked? hpicked) htaken
      exact ⟨fun node heq => houtcome node (Answer.taken.inj heq), hnext⟩
  | refused hop refusal => exact ⟨by simp, h⟩
  | edited hedit =>
      refine ⟨fun node heq => ?_, h⟩
      subst heq
      cases op <;> simp [Op.edit?] at hedit
  | reset =>
      obtain ⟨rfl, -⟩ := h
      exact ⟨by simp, onTrack_start ht.start s.config⟩

/-- A tree that passes the review is played without running into a node that does not exist: no run
ends that way, and no choice is answered that way. -/
theorem run_never_misses_target {t : Tree} (hstart : t.lint.ofKind .missingStart = [])
    (hchoice : t.lint.ofKind .danglingChoice = [])
    (hdetour : t.lint.ofKind .danglingDetour = []) (config : Config) (ops : List Op) :
    (∀ node, ((start t config).run ops).2.snapshot.status ≠ .ended (.missingTarget node)) ∧
      ∀ node, .taken (.ended (.missingTarget node)) ∉ ((start t config).run ops).1 := by
  have ht := Tree.targetsExist_of_lint hstart hchoice hdetour
  obtain ⟨hanswers, -, hstatus⟩ :=
    run_invariant _ (onTrack_performed ht) (onTrack_start ht.start config) ops
  exact ⟨hstatus, fun node hmem => hanswers _ hmem node rfl⟩

/-- A gate that is passed only with a pass, and an exit without a target. -/
def guardedGate : Tree :=
  (Tree.bare "gate" "road").withNode
      ((Node.line "road" "Guard" "Halt.").withChoice
          (((Choice.leading "enter" "Let me in." "road").withFlagChanges ["asked"] []).withDetour
            "yard" (Gate.free.require "pass"))
        |>.withChoice (Choice.ending "leave" "Never mind." "left"))
    |>.withNode (Node.line "yard" "Guard" "Welcome.")

theorem run_never_misses_target_at_guardedGate :
    guardedGate.lint.ofKind .missingStart = [] ∧
      guardedGate.lint.ofKind .danglingChoice = [] ∧
      guardedGate.lint.ofKind .danglingDetour = [] ∧
      let played := (start guardedGate .bare).run
        [.apply "enter", .setFlag "pass", .choose 0, .choose 7, .reset, .apply "leave", .choose 0]
      (∀ node, played.2.snapshot.status ≠ .ended (.missingTarget node)) ∧
        ∀ node, .taken (.ended (.missingTarget node)) ∉ played.1 := by
  have hstart : guardedGate.lint.ofKind .missingStart = [] := by decide +kernel
  have hchoice : guardedGate.lint.ofKind .danglingChoice = [] := by decide +kernel
  have hdetour : guardedGate.lint.ofKind .danglingDetour = [] := by decide +kernel
  exact ⟨hstart, hchoice, hdetour, run_never_misses_target hstart hchoice hdetour .bare _⟩

end Session

end Dialogue
