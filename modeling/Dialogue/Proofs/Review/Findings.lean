import Dialogue.Review.Lint
import Dialogue.Proofs.Review.Repetition
import Dialogue.Proofs.Story.Targets
/-!
# What a review finds

For each kind of issue, what is found of it in a tree: one finding for each place, in the order of the
places.  Those that are told once for several places keep their first place, and all others are told
wherever they are.  From that follows what it means that a report has no issue of a kind.
-/

namespace Dialogue

/-! ## Places in a tree -/

/-- The gates of a node, each with the choice at which it stands.  Those of variations stand at
none. -/
def Node.placedGates (n : Node) : List (Option String × Gate) :=
  n.otherTexts.flatMap (fun v => v.gate.toList.map fun gate => (none, gate)) ++
    n.choices.flatMap fun c =>
      c.otherWays.map (fun d => (some c.id, d.gate)) ++ c.gate.toList.map fun gate => (some c.id, gate)

namespace Tree

def detours (t : Tree) : List (String × Choice × Detour) :=
  t.choices.flatMap fun e => e.2.otherWays.map fun d => (e.1, e.2, d)

def conditions (t : Tree) : List (String × Option String × Condition) :=
  t.nodes.entries.flatMap fun e => e.2.placedGates.flatMap fun g =>
    g.2.counterConditions.map fun condition => (e.1, g.1, condition)

theorem flatMap_choices {α : Type} (t : Tree) (f : String → Choice → List α) :
    (t.choices.flatMap fun e => f e.1 e.2) =
      t.nodes.entries.flatMap fun e => e.2.choices.flatMap (f e.1) := by
  simp only [choices, List.flatMap_assoc, List.flatMap_map]

end Tree

/-! ## Findings of one kind -/

namespace Finding

theorem kind_of_mem_ofGate {node : String} {choice : Option String} {gate : Gate} {f : Finding}
    (h : f ∈ ofGate node choice gate) : f.kind = .unknownOperator := by
  obtain ⟨c, -, rfl⟩ := List.mem_map.1 h
  rfl

theorem kind_of_mem_ofExit {t : Tree} {node choice status : String} {f : Finding}
    (h : f ∈ ofExit t node choice status) : f.kind = .exitClash := by
  simp only [ofExit, List.mem_ite_nil_right, List.mem_singleton] at h
  rw [h.2]
  rfl

theorem kind_of_mem_ofCharacter {id : String} {c : Character} {f : Finding}
    (h : f ∈ ofCharacter id c) : f.kind = .missingDefaultPortrait := by
  simp only [ofCharacter, List.mem_ite_nil_left, List.mem_singleton] at h
  rw [h.2]
  rfl

theorem kind_of_mem_ofShownCounters {t : Tree} {f : Finding} (h : f ∈ ofShownCounters t) :
    f.kind = .unwrittenVariable := by
  obtain ⟨entry, -, hmem⟩ := List.mem_flatMap.1 h
  obtain ⟨name, -, rfl⟩ := List.mem_map.1 hmem
  rfl

def ofKind (k : IssueKind) (fs : List Finding) : List Finding := fs.filter fun f => f.kind = k

def subject : Finding → String
  | exitClash _ _ status => status
  | unwrittenVariable _ name => name
  | _ => ""

section

variable (k : IssueKind)

@[simp] theorem ofKind_nil : ofKind k [] = [] := rfl

@[simp] theorem ofKind_append (fs gs : List Finding) :
    ofKind k (fs ++ gs) = ofKind k fs ++ ofKind k gs :=
  List.filter_append fs gs

@[simp] theorem ofKind_flatMap {α : Type} (l : List α) (f : α → List Finding) :
    ofKind k (l.flatMap f) = l.flatMap fun a => ofKind k (f a) :=
  List.filter_flatMap

@[simp] theorem ofKind_cons (f : Finding) (fs : List Finding) :
    ofKind k (f :: fs) = if f.kind = k then f :: ofKind k fs else ofKind k fs := by
  simp only [ofKind, List.filter_cons, decide_eq_true_eq]

theorem ofKind_of_forall {k' : IssueKind} {fs : List Finding} (h : ∀ f ∈ fs, f.kind = k') :
    ofKind k fs = if k' = k then fs else [] := by
  split
  next heq => exact List.filter_eq_self.2 fun f hf => by simp [h f hf, heq]
  next hne => exact List.filter_eq_nil_iff.2 fun f hf => by simp [h f hf, hne]

@[simp] theorem ofKind_ofGate (node : String) (choice : Option String) (gate : Gate) :
    ofKind k (ofGate node choice gate) =
      if .unknownOperator = k then ofGate node choice gate else [] :=
  ofKind_of_forall k fun _ => kind_of_mem_ofGate

@[simp] theorem ofKind_ofExit (t : Tree) (node choice status : String) :
    ofKind k (ofExit t node choice status) =
      if .exitClash = k then ofExit t node choice status else [] :=
  ofKind_of_forall k fun _ => kind_of_mem_ofExit

@[simp] theorem ofKind_ofCharacter (id : String) (c : Character) :
    ofKind k (ofCharacter id c) =
      if .missingDefaultPortrait = k then ofCharacter id c else [] :=
  ofKind_of_forall k fun _ => kind_of_mem_ofCharacter

@[simp] theorem ofKind_ofShownCounters (t : Tree) :
    ofKind k (ofShownCounters t) = if .unwrittenVariable = k then ofShownCounters t else [] :=
  ofKind_of_forall k fun _ => kind_of_mem_ofShownCounters

@[simp] theorem ofKind_ofDetour (t : Tree) (node choice : String) (d : Detour) :
    ofKind k (ofDetour t node choice d) =
      (if t.hasNode d.target then [] else ofKind k [danglingDetour node choice d.target]) ++
        ofKind k (ofGate node (some choice) d.gate) := by
  rw [ofDetour, ofKind_append, apply_ite (ofKind k), ofKind_nil]

@[simp] theorem ofKind_ofChoice (t : Tree) (node : String) (c : Choice) :
    ofKind k (ofChoice t node c) =
      (if t.isDangling c then ofKind k [danglingChoice node c.id c.target] else []) ++
        (c.exitStatus.toList.flatMap fun status => ofKind k (ofExit t node c.id status)) ++
        (c.otherWays.flatMap fun d => ofKind k (ofDetour t node c.id d)) ++
        c.gate.toList.flatMap fun gate => ofKind k (ofGate node (some c.id) gate) := by
  simp only [ofChoice, ofKind_append, apply_ite (ofKind k), ofKind_nil, ofKind_flatMap]

@[simp] theorem ofKind_ofNode (t : Tree) (reached : List String) (node : String) (n : Node) :
    ofKind k (ofNode t reached node n) =
      (if n.id = node then [] else ofKind k [idMismatch node n.id]) ++
        (if t.isPlayable && !reached.contains node then ofKind k [unreachable node] else []) ++
        (if n.character ≠ "" && !t.characters.contains n.character then
          ofKind k [unknownCharacter node n.character] else []) ++
        (n.otherTexts.flatMap fun v =>
          v.gate.toList.flatMap fun gate => ofKind k (ofGate node none gate)) ++
        n.choices.flatMap fun c => ofKind k (ofChoice t node c) := by
  simp only [ofNode, ofKind_append, apply_ite (ofKind k), ofKind_nil, ofKind_flatMap]

end

theorem kind_eq_of_repeats {f g : Finding} (h : f.repeats g = true) : f.kind = g.kind := by
  cases f <;> cases g <;> first | rfl | cases h

theorem repeats_eq_false_of_kind {f : Finding} (hclash : f.kind ≠ .exitClash)
    (hcounter : f.kind ≠ .unwrittenVariable) (g : Finding) : f.repeats g = false := by
  cases f <;> simp_all [kind, repeats]

/-- Of the kinds that are told once, findings repeat each other that have the same subject. -/
theorem repeats_eq_subject {f g : Finding} (hkind : f.kind = g.kind)
    (honce : f.kind = .exitClash ∨ f.kind = .unwrittenVariable) :
    f.repeats g = decide (f.subject = g.subject) := by
  cases f <;> cases g <;> first | rfl | simp [kind] at hkind honce

end Finding

namespace Tree

open Finding

variable (t : Tree)

theorem ofKind_findings (k : IssueKind) :
    ofKind k t.findings = (ofKind k t.rawFindings).eraseDupsBy Finding.repeats :=
  filter_eraseDupsBy (fun f g h => by rw [kind_eq_of_repeats h]) t.rawFindings

theorem ofKind_lint (k : IssueKind) : t.lint.ofKind k = (ofKind k t.findings).map issue := by
  simp only [Report.ofKind, lint, ofKind, List.filter_map]
  rfl

/-- Of the other kinds, whatever is wrong is found wherever it is. -/
theorem ofKind_findings_of_ne {k : IssueKind} (hclash : k ≠ .exitClash)
    (hcounter : k ≠ .unwrittenVariable) : ofKind k t.findings = ofKind k t.rawFindings := by
  rw [ofKind_findings, eraseDupsBy_of_unrepeated]
  intro f hf
  have hkind : f.kind = k := by simpa using (List.mem_filter.1 hf).2
  exact repeats_eq_false_of_kind (hkind ▸ hclash) (hkind ▸ hcounter)

theorem ofKind_lint_of_ne {k : IssueKind} (hclash : k ≠ .exitClash)
    (hcounter : k ≠ .unwrittenVariable) :
    t.lint.ofKind k = (ofKind k t.rawFindings).map issue := by
  rw [ofKind_lint, ofKind_findings_of_ne t hclash hcounter]

@[simp] theorem ofKind_rawFindings (k : IssueKind) :
    ofKind k t.rawFindings =
      (if t.isPlayable then [] else ofKind k [Finding.missingStart t.start]) ++
        (t.characters.entries.flatMap fun e => ofKind k (ofCharacter e.1 e.2)) ++
        (t.nodes.entries.flatMap fun e =>
          ofKind k (ofNode t (Layout.reachableIds t) e.1 e.2)) ++
        ofKind k (ofShownCounters t) := by
  simp only [rawFindings, ofKind_append, apply_ite (ofKind k), ofKind_nil, ofKind_flatMap]

/-! ## Each kind of finding -/

theorem ofKind_missingStart :
    ofKind .missingStart t.rawFindings =
      if t.isPlayable then [] else [Finding.missingStart t.start] := by
  simp [kind]

theorem ofKind_missingDefaultPortrait :
    ofKind .missingDefaultPortrait t.rawFindings =
      (t.characters.entries.filter fun e => !e.2.portraits.contains e.2.defaultEmotion).map
        fun e => missingDefaultPortrait e.1 e.2.defaultEmotion := by
  rw [← flatMap_ite_nil]
  simp [kind]
  rfl

theorem ofKind_idMismatch :
    ofKind .idMismatch t.rawFindings =
      (t.nodes.entries.filter fun e => e.2.id ≠ e.1).map fun e => idMismatch e.1 e.2.id := by
  rw [← flatMap_ite_singleton]
  simp [kind]

theorem ofKind_unreachable :
    ofKind .unreachable t.rawFindings =
      if t.isPlayable then
        (t.nodes.keys.filter fun key => !(Layout.reachableIds t).contains key).map
          Finding.unreachable
      else [] := by
  rw [← flatMap_ite_singleton, Catalog.keys, List.flatMap_map]
  cases h : t.isPlayable <;> simp [kind, h]

theorem ofKind_unknownCharacter :
    ofKind .unknownCharacter t.rawFindings =
      (t.nodes.entries.filter fun e =>
        e.2.character ≠ "" && !t.characters.contains e.2.character).map
          fun e => unknownCharacter e.1 e.2.character := by
  rw [← flatMap_ite_singleton]
  simp [kind]

theorem ofKind_danglingChoice :
    ofKind .danglingChoice t.rawFindings =
      (t.choices.filter fun e => t.isDangling e.2).map
        fun e => danglingChoice e.1 e.2.id e.2.target := by
  rw [← flatMap_ite_singleton, flatMap_choices t fun key c =>
    if t.isDangling c = true then [danglingChoice key c.id c.target] else []]
  simp [kind]

theorem ofKind_danglingDetour :
    ofKind .danglingDetour t.rawFindings =
      (t.detours.filter fun e => !t.hasNode e.2.2.target).map
        fun e => danglingDetour e.1 e.2.1.id e.2.2.target := by
  rw [← flatMap_ite_nil, detours, List.flatMap_assoc, flatMap_choices t fun key c =>
    (c.otherWays.map fun d => (key, c, d)).flatMap fun e =>
      if t.hasNode e.2.2.target = true then [] else [danglingDetour e.1 e.2.1.id e.2.2.target]]
  simp [kind, List.flatMap_map]

theorem ofKind_unknownOperator :
    ofKind .unknownOperator t.rawFindings =
      (t.conditions.filter fun e => !e.2.2.comparison.isKnown).map
        fun e => unknownOperator e.1 e.2.1 e.2.2.key e.2.2.comparison.sign := by
  simp [kind]
  simp [conditions, ofGate, Node.placedGates, List.flatMap_map, List.flatMap_assoc,
    List.filter_flatMap, List.map_flatMap, List.filter_map, Function.comp_def]

theorem ofKind_exitClash :
    ofKind .exitClash t.rawFindings =
      t.choices.flatMap fun e => e.2.exitStatus.toList.flatMap (ofExit t e.1 e.2.id) := by
  rw [flatMap_choices t fun key c => c.exitStatus.toList.flatMap (ofExit t key c.id)]
  simp [kind]

theorem ofKind_unwrittenVariable :
    ofKind .unwrittenVariable t.rawFindings = ofShownCounters t := by
  simp [kind]

/-! ## What the absence of issues says -/

variable {t}

theorem exists_finding_of_mem_lint {i : Issue} (h : i ∈ t.lint.issues) :
    ∃ f ∈ t.rawFindings, f.issue = i := by
  obtain ⟨f, hmem, hf⟩ := List.mem_map.1 h
  exact ⟨f, mem_of_mem_eraseDupsBy hmem, hf⟩

theorem isPlayable_of_lint (h : t.lint.ofKind .missingStart = []) : t.isPlayable = true := by
  rw [ofKind_lint_of_ne t (by decide) (by decide), ofKind_missingStart] at h
  by_contra hnot
  simp [hnot] at h

theorem ofKind_missingStart_of_isPlayable (h : t.isPlayable = true) :
    t.lint.ofKind .missingStart = [] := by
  rw [ofKind_lint_of_ne t (by decide) (by decide), ofKind_missingStart, if_pos h]
  rfl

theorem mem_choices_of_mem_entries {key : String} {n : Node} {c : Choice}
    (hn : (key, n) ∈ t.nodes.entries) (hc : c ∈ n.choices) : (key, c) ∈ t.choices :=
  List.mem_flatMap.2 ⟨(key, n), hn, List.mem_map.2 ⟨c, hc, rfl⟩⟩

theorem isDangling_of_lint (h : t.lint.ofKind .danglingChoice = [])
    {key : String} {n : Node} {c : Choice} (hn : (key, n) ∈ t.nodes.entries)
    (hc : c ∈ n.choices) : t.isDangling c = false := by
  rw [ofKind_lint_of_ne t (by decide) (by decide), ofKind_danglingChoice, List.map_eq_nil_iff,
    List.map_eq_nil_iff, List.filter_eq_nil_iff] at h
  simpa using h (key, c) (mem_choices_of_mem_entries hn hc)

theorem hasNode_detour_of_lint (h : t.lint.ofKind .danglingDetour = [])
    {key : String} {n : Node} {c : Choice} {d : Detour} (hn : (key, n) ∈ t.nodes.entries)
    (hc : c ∈ n.choices) (hd : d ∈ c.otherWays) : t.hasNode d.target = true := by
  rw [ofKind_lint_of_ne t (by decide) (by decide), ofKind_danglingDetour, List.map_eq_nil_iff,
    List.map_eq_nil_iff, List.filter_eq_nil_iff] at h
  have hmem : (key, c, d) ∈ t.detours :=
    List.mem_flatMap.2 ⟨(key, c), mem_choices_of_mem_entries hn hc, List.mem_map.2 ⟨d, hd, rfl⟩⟩
  simpa using h (key, c, d) hmem

/-- A node is reported as out of reach only if the walk through the graph does not find it. -/
theorem not_mem_reachableIds_of_lint {i : Issue} (h : i ∈ t.lint.issues)
    (hkind : i.kind = .unreachable) :
    ∃ node, i.node = some node ∧ node ∉ Layout.reachableIds t := by
  have hmem : i ∈ t.lint.ofKind .unreachable := List.mem_filter.2 ⟨h, by simp [hkind]⟩
  rw [ofKind_lint_of_ne t (by decide) (by decide), ofKind_unreachable] at hmem
  obtain ⟨f, hf, rfl⟩ := List.mem_map.1 hmem
  simp only [List.mem_ite_nil_right, List.mem_map, List.mem_filter] at hf
  obtain ⟨-, key, ⟨-, hnot⟩, rfl⟩ := hf
  exact ⟨key, rfl, by simpa using hnot⟩

end Tree

end Dialogue
