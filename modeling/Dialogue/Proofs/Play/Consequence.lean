import Dialogue.Proofs.Play.Step
import Dialogue.Proofs.Story.Effect
import Dialogue.Proofs.Story.Priority
/-!
# What comes of a choice

A choice that is taken changes flags and counters, and then ends the conversation or leads to a
node, whose line is added to the transcript.  `Consequence` says all of this without the procedure:
each flag and each counter by its name, the destination and the line as they are after the
changes.
-/

namespace Dialogue

structure Tree.Says (t : Tree) (config : Session.Config) (n : Node) (w : World)
    (via : Option String) (line : Message) : Prop where
  node_eq : line.node = n.id
  speaker_eq : line.speaker = n.speaker
  shows : n.Shows w line.rawText line.emotion
  text_eq : line.text = Interpolation.substitute line.rawText w.counters
  spans_eq : line.spans = Markup.spans line.text
  portrait_eq : line.portrait = t.portrait n.character line.emotion config.portrait
  via_eq : line.via = via

theorem Tree.says_iff {t : Tree} {config : Session.Config} {n : Node} {w : World}
    {via : Option String} {line : Message} :
    t.Says config n w via line ↔ line = Message.of t config n w via := by
  constructor
  · intro h
    obtain ⟨node, speaker, rawText, text, spans, emotion, portrait, via'⟩ := line
    have hshown : (rawText, emotion) = n.shown w := Node.shows_iff.1 h.shows
    obtain rfl : node = n.id := h.node_eq
    obtain rfl : speaker = n.speaker := h.speaker_eq
    obtain rfl : spans = Markup.spans text := h.spans_eq
    obtain rfl : text = Interpolation.substitute rawText w.counters := h.text_eq
    obtain rfl : portrait = t.portrait n.character emotion config.portrait := h.portrait_eq
    obtain rfl : via' = via := h.via_eq
    rw [Message.of, ← hshown]
  · rintro rfl
    exact ⟨rfl, rfl, Node.shows_iff.2 rfl, rfl, rfl, rfl, rfl⟩

namespace Session

structure Consequence (s : Session) (c : Choice) (outcome : Outcome) (s' : Session) : Prop where
  tree_eq : s'.tree = s.tree
  config_eq : s'.config = s.config
  changes : c.Changes s.world s'.world
  /-- An exit goes before every destination. -/
  exit : ∀ status, c.exitStatus = some status → outcome = .ended (.exit status)
  /-- Detours are judged by the flags and counters after the changes. -/
  onward : c.exitStatus = none → ∃ target, c.LeadsTo s'.world target ∧
    outcome = if s.tree.hasNode target then .advanced target else .ended (.missingTarget target)
  lost_iff : c.otherWays = [] →
    ((∃ target, outcome = .ended (.missingTarget target)) ↔ s.tree.isDangling c = true)
  /-- One line is added to the transcript: that of the node which the session has come to, as it is
  after the changes. -/
  advanced : ∀ target, outcome = .advanced target →
    s'.snapshot.node = target ∧ s'.snapshot.status = s.snapshot.status ∧
      ∃ n line, s.tree.node? target = some n ∧
        s.tree.Says s.config n s'.world (some c.text) line ∧
        s'.snapshot.transcript = s.snapshot.transcript ++ [line]
  /-- The session stays where it is, and nothing is said any more. -/
  ended : ∀ ending, outcome = .ended ending →
    s'.snapshot.node = s.snapshot.node ∧ s'.snapshot.status = .ended ending ∧
      s'.snapshot.transcript = s.snapshot.transcript

variable {s s' : Session} {c : Choice} {outcome : Outcome}

/-! ## The procedure and what comes of it -/

theorem consequence_of_taken (h : Taken s c outcome s') : Consequence s c outcome s' := by
  have hchanges := c.changes_effect s.world
  cases h with
  | exit hexit =>
      exact {
        tree_eq := rfl
        config_eq := rfl
        changes := hchanges
        exit := by
          intro status hstatus
          rw [← Option.some.inj (hexit.symm.trans hstatus)]
        onward := by
          intro hnone
          rw [hexit] at hnone
          cases hnone
        lost_iff := by
          intro _
          simp [Tree.isDangling_iff, hexit]
        advanced := by
          intro target heq
          cases heq
        ended := by
          intro ending heq
          cases heq
          exact ⟨rfl, rfl, rfl⟩ }
  | @lost target hexit htarget hlost =>
      have hnode : s.tree.hasNode target = false := by
        rw [← Tree.isSome_target?, hlost]
        rfl
      exact {
        tree_eq := rfl
        config_eq := rfl
        changes := hchanges
        exit := by
          intro status hstatus
          rw [hexit] at hstatus
          cases hstatus
        onward := by
          intro _
          refine ⟨target, Choice.leadsTo_iff.2 htarget, ?_⟩
          rw [hnode]
          rfl
        lost_iff := by
          intro hways
          rw [Choice.destination_eq_target hways] at htarget
          subst htarget
          exact iff_of_true ⟨c.target, rfl⟩ (Tree.isDangling_iff.2 ⟨hexit, hnode⟩)
        advanced := by
          intro target' heq
          cases heq
        ended := by
          intro ending heq
          cases heq
          exact ⟨rfl, rfl, rfl⟩ }
  | @advanced target n hexit htarget hfound =>
      have hnode : s.tree.hasNode target = true := Tree.hasNode_of_target? hfound
      have hn : s.tree.node? target = some n := (Tree.target?_eq_some_iff.1 hfound).2
      exact {
        tree_eq := rfl
        config_eq := rfl
        changes := hchanges
        exit := by
          intro status hstatus
          rw [hexit] at hstatus
          cases hstatus
        onward := by
          intro _
          refine ⟨target, Choice.leadsTo_iff.2 htarget, ?_⟩
          rw [hnode]
          rfl
        lost_iff := by
          intro hways
          rw [Choice.destination_eq_target hways] at htarget
          subst htarget
          simp [Tree.isDangling_iff, hnode]
        advanced := by
          intro target' heq
          cases heq
          exact ⟨rfl, rfl, n, _, hn, Tree.says_iff.2 rfl, rfl⟩
        ended := by
          intro ending heq
          cases heq }

theorem ext_parts (htree : s.tree = s'.tree) (hconfig : s.config = s'.config)
    (hnode : s.snapshot.node = s'.snapshot.node) (hworld : s.world = s'.world)
    (htranscript : s.snapshot.transcript = s'.snapshot.transcript)
    (hstatus : s.snapshot.status = s'.snapshot.status) : s = s' := by
  obtain ⟨tree, config, node, world, transcript, status⟩ := s
  obtain ⟨tree', config', node', world', transcript', status'⟩ := s'
  cases htree
  cases hconfig
  cases hnode
  cases hworld
  cases htranscript
  cases hstatus
  rfl

/-- Nothing else can have come of a choice: what it leads to is said completely. -/
theorem Consequence.taken (h : Consequence s c outcome s') : Taken s c outcome s' := by
  have hworld : s'.world = c.effect s.world := Choice.changes_iff.1 h.changes
  cases hexit : c.exitStatus with
  | some status =>
      obtain rfl := h.exit status hexit
      obtain ⟨hnode, hstatus, htranscript⟩ := h.ended _ rfl
      have heq : s' = { s with
          snapshot.world := c.effect s.world
          snapshot.status := .ended (.exit status) } :=
        ext_parts h.tree_eq h.config_eq hnode hworld htranscript hstatus
      rw [heq]
      exact .exit hexit
  | none =>
      obtain ⟨target, hleads, houtcome⟩ := h.onward hexit
      rw [hworld] at hleads
      have htarget := Choice.leadsTo_iff.1 hleads
      cases hhas : s.tree.hasNode target with
      | true =>
          rw [hhas, if_pos rfl] at houtcome
          obtain ⟨hnode, hstatus, n, line, hn, hline, htranscript⟩ := h.advanced target houtcome
          have hfound : s.tree.target? target = some n :=
            Tree.target?_eq_some_iff.2 ⟨(Tree.hasNode_iff.1 hhas).1, hn⟩
          rw [Tree.says_iff.1 hline, hworld] at htranscript
          have heq : s' = { s with
              snapshot.world := c.effect s.world
              snapshot.node := target
              snapshot.transcript := s.snapshot.transcript ++
                [Message.of s.tree s.config n (c.effect s.world) (some c.text)] } :=
            ext_parts h.tree_eq h.config_eq hnode hworld htranscript hstatus
          rw [heq, houtcome]
          exact .advanced hexit htarget hfound
      | false =>
          rw [hhas, if_neg Bool.false_ne_true] at houtcome
          obtain ⟨hnode, hstatus, htranscript⟩ := h.ended _ houtcome
          have hlost : s.tree.target? target = none := by
            rw [← Option.isNone_iff_eq_none, ← Option.not_isSome, Tree.isSome_target?, hhas]
            rfl
          have heq : s' = { s with
              snapshot.world := c.effect s.world
              snapshot.status := .ended (.missingTarget target) } :=
            ext_parts h.tree_eq h.config_eq hnode hworld htranscript hstatus
          rw [heq, houtcome]
          exact .lost hexit htarget hlost

theorem take_eq_ok_iff_taken :
    s.take c = (.ok outcome, s') ↔ s.isAvailable c = true ∧ Taken s c outcome s' := by
  refine ⟨fun h => ?_, fun ⟨hopen, htaken⟩ => take_of_taken hopen htaken⟩
  cases hopen : s.isAvailable c with
  | false =>
      rw [take_of_not_isAvailable hopen] at h
      cases h
  | true =>
      obtain ⟨outcome', s'', htaken⟩ := exists_taken s c
      rw [take_of_taken hopen htaken] at h
      cases h
      exact ⟨rfl, htaken⟩

/-- A choice can be taken exactly if its gate is open, and this comes of it and nothing else: flags
are set, or kept unless they are cleared; each counter follows its own adjustments from one value to
the next, where every sum and difference stops at the bounds of 64 bits and every operation that is
missing or unknown sets the counter; an exit ends the conversation; otherwise it goes on at the
first open detour or the choice's own target, or ends if there is no node; and the line of the node
that it goes on with is all that is added to the transcript. -/
theorem take_eq_ok_iff_consequence (s : Session) (c : Choice) (outcome : Outcome) (s' : Session) :
    (s.take c = (.ok outcome, s') ↔ s.isAvailable c = true ∧ Consequence s c outcome s') ∧
      ∀ name, name ≠ "add" → name ≠ "subtract" → Operation.ofName name = .set := by
  refine ⟨?_, fun name => Operation.ofName_eq_set⟩
  rw [take_eq_ok_iff_taken]
  exact and_congr_right fun _ => ⟨consequence_of_taken, Consequence.taken⟩

/-- A sum that reaches the bound is cut there, before the difference that follows. -/
example :
    let purse : Adjustment := ⟨"coins", Int64.maxValue, none⟩
    let gift : Adjustment := ⟨"coins", 5, some .add⟩
    let toll : Adjustment := ⟨"coins", 7, some .subtract⟩
    [purse, gift, toll].foldl (fun n a => a.exact n) 3 = Int64.maxValue.toInt - 7 := by
  decide

end Session

end Dialogue
