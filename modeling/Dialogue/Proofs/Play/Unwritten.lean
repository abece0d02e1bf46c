import Dialogue.Proofs.Play.Step
import Dialogue.Proofs.Review.Mention
import Dialogue.Proofs.Review.Report
import Dialogue.Proofs.Story.Effect
/-!
# Counters that nothing writes

A report tells of the counters that texts show and no choice writes.  It tells the truth about play: if
the host gives such a counter no value, it never has one, and every token of it is shown as the stand-in
for a missing value.  And each counter that is shown and not told of is written by some choice.
-/

namespace Dialogue

/-! ## What the report tells of -/

theorem Finding.message_unwrittenVariable (node name : String) :
    (unwrittenVariable node name).message =
      "Variable '" ++ name ++ "' in node '" ++ node ++ "' is never set by any choice and shows " ++
        Interpolation.missingValue ++ " unless the host seeds it" :=
  rfl

theorem Finding.eq_of_issue_unwrittenVariable {node node' name name' : String}
    (h : (unwrittenVariable node name).issue = (unwrittenVariable node' name').issue) :
    name = name' := by
  have hnode : some node = some node' := congrArg Issue.node h
  obtain rfl : node = node' := Option.some.inj hnode
  have hmessage : (unwrittenVariable node name).message = (unwrittenVariable node name').message :=
    congrArg Issue.message h
  rw [message_unwrittenVariable, message_unwrittenVariable] at hmessage
  simpa only [String.append_left_inj, String.append_right_inj] using hmessage

namespace Tree

variable {t : Tree} {name : String}

def TellsUnwritten (t : Tree) (name : String) : Prop :=
  ∃ node, (Finding.unwrittenVariable node name).issue ∈ t.lint.issues

theorem tellsUnwritten_iff : t.TellsUnwritten name ↔ t.IsUnwritten name := by
  constructor
  · rintro ⟨node, hissue⟩
    obtain ⟨f, hf, heq⟩ := exists_finding_of_mem_lint hissue
    have hkind : f.kind = .unwrittenVariable := congrArg Issue.kind heq
    have hmem : f ∈ Finding.ofKind .unwrittenVariable t.rawFindings :=
      List.mem_filter.2 ⟨hf, decide_eq_true hkind⟩
    rw [ofKind_unwrittenVariable] at hmem
    obtain ⟨e, -, other, -, -, rfl⟩ := mem_ofShownCounters.1 hmem
    refine isUnwritten_iff.1 ⟨_, List.mem_filter.2 ⟨hf, decide_eq_true hkind⟩, ?_⟩
    exact Finding.eq_of_issue_unwrittenVariable heq
  · intro h
    obtain ⟨names, -, hnames, hissues⟩ := t.oneForEach_lint (.inr rfl) (fun _ => isUnwritten_iff)
      fun _ _ => isFirstMention_of_find?
    obtain ⟨issue, hissue, e, -, rfl⟩ := exists_mem_of_forall₂ hissues.flip ((hnames name).2 h)
    exact ⟨e.1, (List.mem_filter.1 hissue).1⟩

theorem exists_adjustment_of_not_tellsUnwritten (h : ¬ t.TellsUnwritten name)
    (hshown : ∃ e ∈ t.nodes.entries, ∃ text ∈ e.2.texts, name ∈ Interpolation.mentions text) :
    ∃ e ∈ t.choices, ∃ a ∈ e.2.counterAdjustments, a.key = name := by
  by_contra hnone
  refine h (tellsUnwritten_iff.2 ⟨hshown, fun e he a ha hkey => hnone ⟨e, he, a, ha, hkey⟩⟩)

end Tree

/-! ## What is shown of such a counter -/

namespace Interpolation

variable {name : String} {counters : Counters}

/-- A piece with the stand-in for a missing value in the place of a token of one counter; a token of
another counter is shown as it is. -/
def Piece.withStandIn (name : String) (counters : Counters) : Piece → List Char
  | .plain c => [c]
  | .token body =>
    if nameOf body = name then missingValue.toList else Interpolation.shown counters (nameOf body)

def withStandIn (name text : String) (counters : Counters) : String :=
  String.ofList ((pieces text.toList).flatMap (Piece.withStandIn name counters))

theorem Piece.shown_eq_withStandIn (h : counters.value? name = none) (piece : Piece) :
    piece.shown counters = piece.withStandIn name counters := by
  cases piece with
  | plain c => rfl
  | token body =>
      by_cases hname : nameOf body = name
      · rw [Piece.shown, withStandIn, if_pos hname, Interpolation.shown, hname, h]
      · rw [Piece.shown, withStandIn, if_neg hname]

def ShowsMissing (name rawText text : String) : Prop :=
  ∃ counters, text = withStandIn name rawText counters

theorem showsMissing_substitute (h : counters.value? name = none) (text : String) :
    ShowsMissing name text (substitute text counters) :=
  ⟨counters, congrArg String.ofList (List.flatMap_congr fun piece _ =>
    Piece.shown_eq_withStandIn h piece)⟩

end Interpolation

open Interpolation (ShowsMissing showsMissing_substitute)

namespace Session

variable {t : Tree} {name : String} {s s' : Session}

/-- The counter has no value, gets none by a reset, and has been shown as missing so far. -/
structure Lacks (t : Tree) (name : String) (s : Session) : Prop where
  tree_eq : s.tree = t
  config_lacks : s.config.counters.value? name = none
  lacks : s.world.counters.value? name = none
  lines : ∀ line ∈ s.snapshot.transcript, ShowsMissing name line.rawText line.text

theorem lacks_start {config : Config} (h : config.counters.value? name = none) :
    Lacks t name (start t config) := by
  refine ⟨rfl, h, ?_, ?_⟩
  · rw [start, world, Snapshot.world_initial]
    exact h
  · intro line hline
    obtain ⟨n, -, rfl⟩ := Snapshot.exists_of_mem_transcript_initial hline
    exact showsMissing_substitute h _

theorem value?_effect_eq_none (h : t.IsUnwritten name) {key : String} {c : Choice}
    (hc : (key, c) ∈ t.choices) {w : World} (hw : w.counters.value? name = none) :
    (c.effect w).counters.value? name = none := by
  have hnot : name ∉ c.counterAdjustments.map (·.key) := by
    intro hmem
    obtain ⟨a, ha, hkey⟩ := List.mem_map.1 hmem
    exact h.2 (key, c) hc a ha hkey
  have hcontains : w.counters.contains name = false := by
    rw [Counters.contains, SortedMap.contains]
    exact Option.isSome_eq_false_iff.2 (Option.isNone_iff_eq_none.2 hw)
  rw [Counters.value?_eq, Choice.effect, Adjustment.contains_foldl_apply, hcontains]
  simp [hnot]

theorem lacks_taken (hname : t.IsUnwritten name) (h : Lacks t name s) {c : Choice}
    {outcome : Outcome} (hc : c ∈ s.choices) (htaken : Taken s c outcome s') :
    Lacks t name s' := by
  obtain ⟨rfl, hconfig, hworld, hlines⟩ := h
  obtain ⟨n, hn, hmem⟩ := mem_choices_iff.1 hc
  have hchoice : (s.snapshot.node, c) ∈ s.tree.choices :=
    Tree.mem_choices_of_mem_entries (Tree.mem_entries_of_node? hn) hmem
  have heffect : (c.effect s.world).counters.value? name = none :=
    value?_effect_eq_none hname hchoice hworld
  cases htaken with
  | exit hexit => exact ⟨rfl, hconfig, heffect, hlines⟩
  | lost hexit htarget hlost => exact ⟨rfl, hconfig, heffect, hlines⟩
  | advanced hexit htarget hfound =>
      refine ⟨rfl, hconfig, heffect, fun line hline => ?_⟩
      rcases List.mem_append.1 hline with hold | hnew
      · exact hlines line hold
      · rw [List.mem_singleton.1 hnew]
        exact showsMissing_substitute heffect _

theorem value?_edit_eq_none {op : Op} {w w' : World} {answer : Answer}
    (hop : ∀ value, op ≠ .setCounter name value) (hedit : op.edit? w = some (answer, w'))
    (h : w.counters.value? name = none) : w'.counters.value? name = none := by
  cases op with
  | setCounter key value =>
      cases hedit
      have hne : name ≠ key := fun heq => hop value (heq ▸ rfl)
      rw [Counters.value?_set, if_neg hne]
      exact h
  | setFlag flag | clearFlag flag | toggleFlag flag =>
      cases hedit
      exact h
  | apply id | choose index | reset => cases hedit

/-- Only the host can write the counter. -/
theorem lacks_performed (hname : t.IsUnwritten name) {op : Op} {answer : Answer}
    (hop : ∀ value, op ≠ .setCounter name value) (h : Lacks t name s)
    (hperformed : Performed s op answer s') : Lacks t name s' := by
  cases hperformed with
  | taken hactive hpicked hopen htaken =>
      exact lacks_taken hname h (mem_choices_of_picked? hpicked) htaken
  | refused hop refusal => exact h
  | edited hedit =>
      exact ⟨h.tree_eq, h.config_lacks, value?_edit_eq_none hop hedit h.lacks, h.lines⟩
  | reset =>
      rw [h.tree_eq]
      exact lacks_start h.config_lacks

theorem lacks_run (hname : t.IsUnwritten name) {config : Config}
    (hconfig : config.counters.value? name = none) {ops : List Op}
    (hops : ∀ value, .setCounter name value ∉ ops) :
    Lacks t name ((start t config).run ops).2 := by
  refine run_keeps_within (fun hop h hperformed => lacks_performed hname hop h hperformed)
    (lacks_start hconfig) fun op hmem value heq => ?_
  exact hops value (heq ▸ hmem)

theorem showsMissing_offers (h : Lacks t name s) :
    ∀ offer ∈ s.offers, ShowsMissing name offer.choice.text offer.text := by
  intro offer hoffer
  obtain ⟨index, c, -, rfl⟩ := exists_choice_of_mem_offers hoffer
  exact showsMissing_substitute h.lacks c.text

/-- In every run in which the host leaves alone a counter that the report tells of, the counter has no
value and is shown as missing; and whatever is shown and not told of, some choice writes. -/
theorem unwritten_tells_truth (t : Tree) :
    (∀ name, t.TellsUnwritten name → ∀ config : Config, config.counters.value? name = none →
      ∀ ops : List Op, (∀ value, .setCounter name value ∉ ops) →
        let s := ((start t config).run ops).2
        s.world.counters.value? name = none ∧
          (∀ line ∈ s.snapshot.transcript, ShowsMissing name line.rawText line.text) ∧
          ∀ offer ∈ s.offers, ShowsMissing name offer.choice.text offer.text) ∧
      ∀ name, (∃ e ∈ t.nodes.entries, ∃ text ∈ e.2.texts, name ∈ Interpolation.mentions text) →
        ¬ t.TellsUnwritten name → ∃ e ∈ t.choices, ∃ a ∈ e.2.counterAdjustments, a.key = name := by
  refine ⟨fun name htold config hconfig ops hops => ?_,
    fun name hshown hnot => Tree.exists_adjustment_of_not_tellsUnwritten hnot hshown⟩
  have h := lacks_run (Tree.tellsUnwritten_iff.1 htold) hconfig hops
  exact ⟨h.lacks, h.lines, showsMissing_offers h⟩

def trimming : Choice :=
  (Choice.leading "trim" "Trim one of \x7b$$wicks\x7d by \x7b$$oil\x7d." "lamp").withAdjustment
    ⟨"wicks", 1, some .add⟩

def lamp : Tree :=
  (Tree.bare "lamp" "lamp").withNode
    ((Node.line "lamp" "Keeper" "Oil: \x7b$$ oil \x7d, wicks: \x7b$$wicks\x7d.").withChoice trimming)

theorem unwritten_tells_truth_at_lamp :
    let s := ((start lamp .bare).run [.choose 0, .setCounter "wicks" 3, .reset, .choose 0]).2
    lamp.TellsUnwritten "oil" ∧
      (s.world.counters.value? "oil" = none ∧
        (∀ line ∈ s.snapshot.transcript, ShowsMissing "oil" line.rawText line.text) ∧
        ∀ offer ∈ s.offers, ShowsMissing "oil" offer.choice.text offer.text) ∧
      ¬ lamp.TellsUnwritten "wicks" ∧
      ∃ e ∈ lamp.choices, ∃ a ∈ e.2.counterAdjustments, a.key = "wicks" := by
  have htold : lamp.TellsUnwritten "oil" := ⟨"lamp", by decide +kernel⟩
  have hnot : ¬ lamp.TellsUnwritten "wicks" := by
    rw [Tree.tellsUnwritten_iff]
    intro h
    exact h.2 ("lamp", trimming) (by decide +kernel) ⟨"wicks", 1, some .add⟩ (by decide +kernel) rfl
  refine ⟨htold, (unwritten_tells_truth lamp).1 "oil" htold .bare rfl _ ?_, hnot,
    (unwritten_tells_truth lamp).2 "wicks" ?_ hnot⟩
  · simp
  · decide +kernel

end Session

end Dialogue
