import Dialogue.Proofs.Review.Findings
/-!
# What a report holds

A report holds one issue for each thing that is wrong with the tree, and no other.  For eight of the
ten kinds it is one for each place, in the order of the places.  Clashes of an exit and counters that
nothing writes are told once, at the first place in the tree's order.
-/

namespace Dialogue

/-! ## Faithful reports -/

/-- The issues are one for each name that has the property, in some order, and each is where its name
comes first. -/
def OneForEach (property : String → Prop) (isFirst : String → Issue → Prop) (issues : List Issue) :
    Prop :=
  ∃ names : List String, names.Nodup ∧ (∀ name, name ∈ names ↔ property name) ∧
    List.Forall₂ isFirst names issues

theorem OneForEach.eq_nil_iff {property : String → Prop} {isFirst : String → Issue → Prop}
    {issues : List Issue} (h : OneForEach property isFirst issues) :
    issues = [] ↔ ∀ name, ¬ property name := by
  obtain ⟨names, -, hnames, hissues⟩ := h
  have hlength := hissues.length_eq
  rw [← List.length_eq_zero_iff, ← hlength, List.length_eq_zero_iff, List.eq_nil_iff_forall_not_mem]
  simp only [hnames]

namespace Tree

def IsClash (t : Tree) (status : String) : Prop :=
  (∃ e ∈ t.choices, e.2.exitStatus = some status) ∧ t.hasNode (Layout.exitId status) = true

def IsFirstClash (t : Tree) (status : String) (i : Issue) : Prop :=
  ∃ e, t.choices.find? (fun e => e.2.exitStatus = some status) = some e ∧
    i = (Finding.exitClash e.1 e.2.id status).issue

def IsUnwritten (t : Tree) (name : String) : Prop :=
  (∃ e ∈ t.nodes.entries, ∃ text ∈ e.2.texts, name ∈ Interpolation.mentions text) ∧
    ∀ e ∈ t.choices, ∀ a ∈ e.2.counterAdjustments, a.key ≠ name

def IsFirstMention (t : Tree) (name : String) (i : Issue) : Prop :=
  ∃ e, t.nodes.entries.find? (fun e => e.2.texts.any fun text =>
      (Interpolation.mentions text).contains name) = some e ∧
    i = (Finding.unwrittenVariable e.1 name).issue

/-- The report tells all that is wrong with the tree, everything once, and nothing else. -/
structure IsReviewedBy (t : Tree) (r : Report) : Prop where
  missingStart : r.ofKind .missingStart =
    if t.isPlayable then [] else [(Finding.missingStart t.start).issue]
  missingDefaultPortrait : r.ofKind .missingDefaultPortrait =
    (t.characters.entries.filter fun e => !e.2.portraits.contains e.2.defaultEmotion).map
      fun e => (Finding.missingDefaultPortrait e.1 e.2.defaultEmotion).issue
  idMismatch : r.ofKind .idMismatch =
    (t.nodes.entries.filter fun e => e.2.id ≠ e.1).map fun e => (Finding.idMismatch e.1 e.2.id).issue
  unreachable : r.ofKind .unreachable =
    if t.isPlayable then
      (t.nodes.keys.filter fun key => !(Layout.reachableIds t).contains key).map
        fun key => (Finding.unreachable key).issue
    else []
  unknownCharacter : r.ofKind .unknownCharacter =
    (t.nodes.entries.filter fun e =>
      e.2.character ≠ "" && !t.characters.contains e.2.character).map
        fun e => (Finding.unknownCharacter e.1 e.2.character).issue
  danglingChoice : r.ofKind .danglingChoice =
    (t.choices.filter fun e => t.isDangling e.2).map
      fun e => (Finding.danglingChoice e.1 e.2.id e.2.target).issue
  danglingDetour : r.ofKind .danglingDetour =
    (t.detours.filter fun e => !t.hasNode e.2.2.target).map
      fun e => (Finding.danglingDetour e.1 e.2.1.id e.2.2.target).issue
  unknownOperator : r.ofKind .unknownOperator =
    (t.conditions.filter fun e => !e.2.2.comparison.isKnown).map
      fun e => (Finding.unknownOperator e.1 e.2.1 e.2.2.key e.2.2.comparison.sign).issue
  exitClash : OneForEach t.IsClash t.IsFirstClash (r.ofKind .exitClash)
  unwrittenVariable : OneForEach t.IsUnwritten t.IsFirstMention (r.ofKind .unwrittenVariable)
  errors : r.errors = r.issues.filter fun i => i.kind = .missingStart ∨ i.kind = .idMismatch
  warnings : r.warnings = r.issues.filter fun i => i.kind ≠ .missingStart ∧ i.kind ≠ .idMismatch

end Tree

/-! ## Findings that are told once -/

namespace Tree

open Finding

variable (t : Tree)

theorem forall₂_ofKind_findings {k : IssueKind} (honce : k = .exitClash ∨ k = .unwrittenVariable) :
    List.Forall₂
      (fun name f => (ofKind k t.rawFindings).find? (fun g => g.subject = name) = some f)
      ((ofKind k t.rawFindings).map subject).eraseDups (ofKind k t.findings) := by
  rw [ofKind_findings]
  refine forall₂_eraseDupsBy fun f hf g hg => ?_
  have hkind : ∀ h ∈ ofKind k t.rawFindings, h.kind = k :=
    fun h hmem => by simpa using (List.mem_filter.1 hmem).2
  refine repeats_eq_subject ?_ ?_
  · rw [hkind f hf, hkind g hg]
  · rwa [hkind f hf]

theorem map_subject_findings {k : IssueKind} (honce : k = .exitClash ∨ k = .unwrittenVariable) :
    (ofKind k t.findings).map subject = ((ofKind k t.rawFindings).map subject).eraseDups := by
  have hfirst := (t.forall₂_ofKind_findings honce).imp fun name f hfound =>
    (by simpa using List.find?_some hfound : f.subject = name)
  rw [← List.forall₂_eq_eq_eq, List.forall₂_map_left_iff]
  exact hfirst.flip

theorem oneForEach_lint {k : IssueKind} (honce : k = .exitClash ∨ k = .unwrittenVariable)
    {property : String → Prop} {isFirst : String → Issue → Prop}
    (hproperty : ∀ name, (∃ f ∈ ofKind k t.rawFindings, f.subject = name) ↔ property name)
    (hfirst : ∀ name f, (ofKind k t.rawFindings).find? (fun g => g.subject = name) = some f →
      isFirst name f.issue) :
    OneForEach property isFirst (t.lint.ofKind k) := by
  refine ⟨((ofKind k t.rawFindings).map subject).eraseDups, nodup_eraseDups _, fun name => ?_, ?_⟩
  · rw [List.mem_eraseDups, List.mem_map]
    exact hproperty name
  · rw [ofKind_lint, List.forall₂_map_right_iff]
    exact (t.forall₂_ofKind_findings honce).imp hfirst

/-! ### Clashes -/

variable {t}

theorem mem_ofKind_exitClash {f : Finding} :
    f ∈ ofKind .exitClash t.rawFindings ↔ ∃ e ∈ t.choices, ∃ status, e.2.exitStatus = some status ∧
      t.hasNode (Layout.exitId status) = true ∧ f = Finding.exitClash e.1 e.2.id status := by
  simp only [ofKind_exitClash, List.mem_flatMap, Option.mem_toList, ofExit, List.mem_ite_nil_right,
    List.mem_singleton]

theorem find?_ofExit (node choice : String) (status : Option String) (name : String) :
    (status.toList.flatMap (ofExit t node choice)).find? (fun f => f.subject = name) =
      if status = some name ∧ t.hasNode (Layout.exitId name) = true then
        some (Finding.exitClash node choice name)
      else none := by
  cases status with
  | none => simp
  | some status =>
      by_cases hname : status = name
      · subst hname
        cases h : t.hasNode (Layout.exitId status) <;> simp [ofExit, h, subject]
      · cases h : t.hasNode (Layout.exitId status) <;> simp [ofExit, h, subject, hname]

theorem isClash_iff {name : String} :
    (∃ f ∈ ofKind .exitClash t.rawFindings, f.subject = name) ↔ t.IsClash name := by
  simp only [mem_ofKind_exitClash]
  constructor
  · rintro ⟨_, ⟨e, he, status, hstatus, hnode, rfl⟩, rfl⟩
    exact ⟨⟨e, he, hstatus⟩, hnode⟩
  · rintro ⟨⟨e, he, hstatus⟩, hnode⟩
    exact ⟨_, ⟨e, he, name, hstatus, hnode, rfl⟩, rfl⟩

theorem isFirstClash_of_find? {name : String} {f : Finding}
    (h : (ofKind .exitClash t.rawFindings).find? (fun g => g.subject = name) = some f) :
    t.IsFirstClash name f.issue := by
  have hclash : t.hasNode (Layout.exitId name) = true :=
    (isClash_iff.1 ⟨f, List.mem_of_find?_eq_some h, by simpa using List.find?_some h⟩).2
  rw [ofKind_exitClash, List.find?_flatMap] at h
  simp only [find?_ofExit, hclash, and_true] at h
  obtain ⟨e, he, rfl⟩ := exists_find?_of_findSome?
    (p := fun e => e.2.exitStatus = some name)
    (g := fun e => Finding.exitClash e.1 e.2.id name)
    (by intro e f hf; split at hf <;> simp_all) (by intro e he; simp_all) h
  exact ⟨e, he, rfl⟩

theorem lint_exitClash_eq_nil_iff :
    t.lint.ofKind .exitClash = [] ↔ ∀ status, ¬ t.IsClash status :=
  (t.oneForEach_lint (.inl rfl) (fun _ => isClash_iff)
    fun _ _ => isFirstClash_of_find?).eq_nil_iff

/-! ### Counters that nothing writes -/

theorem contains_writtenCounters_eq_false_iff {name : String} :
    (t.nodes.values.flatMap Node.writtenCounters).contains name = false ↔
      ∀ e ∈ t.choices, ∀ a ∈ e.2.counterAdjustments, a.key ≠ name := by
  have hwritten : t.nodes.values.flatMap Node.writtenCounters =
      t.choices.flatMap fun e => e.2.counterAdjustments.map (·.key) := by
    rw [flatMap_choices t fun _ c => c.counterAdjustments.map (·.key), Catalog.values,
      List.flatMap_map]
    rfl
  rw [hwritten]
  simp only [List.contains_eq_mem, decide_eq_false_iff_not, List.mem_flatMap, List.mem_map,
    not_exists, not_and]

theorem any_mentions_eq (n : Node) (name : String) :
    (n.texts.any fun text => (Interpolation.mentions text).contains name) =
      n.shownCounters.contains name := by
  rw [Node.shownCounters, List.contains_eq_any_beq, List.any_flatMap]
  simp only [List.contains_eq_any_beq]

theorem mem_ofShownCounters {f : Finding} :
    f ∈ ofShownCounters t ↔ ∃ e ∈ t.nodes.entries, ∃ name ∈ e.2.shownCounters,
      (t.nodes.values.flatMap Node.writtenCounters).contains name = false ∧
        f = Finding.unwrittenVariable e.1 name := by
  simp only [ofShownCounters, List.mem_flatMap, List.mem_map, List.mem_filter, Bool.not_eq_true',
    and_assoc, @eq_comm _ f]

theorem isUnwritten_iff {name : String} :
    (∃ f ∈ ofKind .unwrittenVariable t.rawFindings, f.subject = name) ↔ t.IsUnwritten name := by
  simp only [ofKind_unwrittenVariable, mem_ofShownCounters, IsUnwritten,
    ← contains_writtenCounters_eq_false_iff, Node.shownCounters, List.mem_flatMap]
  constructor
  · rintro ⟨_, ⟨e, he, name, ⟨text, htext, hname⟩, hnot, rfl⟩, rfl⟩
    exact ⟨⟨e, he, text, htext, hname⟩, hnot⟩
  · rintro ⟨⟨e, he, text, htext, hname⟩, hnot⟩
    exact ⟨_, ⟨e, he, name, ⟨text, htext, hname⟩, hnot, rfl⟩, rfl⟩

theorem find?_unwrittenVariable {written : List String} {name : String}
    (hname : written.contains name = false) (node : String) (names : List String) :
    ((names.filter fun other => !written.contains other).map
        (Finding.unwrittenVariable node)).find? (fun f => f.subject = name) =
      if names.contains name = true then some (Finding.unwrittenVariable node name) else none := by
  induction names with
  | nil => rfl
  | cons other names ih =>
      by_cases hother : other = name
      · subst hother
        simp only [List.filter_cons, hname, Bool.not_false, if_true, List.map_cons]
        simp [subject]
      · have hcontains : (other :: names).contains name = names.contains name := by
          simp [Ne.symm hother]
        rw [hcontains, ← ih, List.filter_cons]
        split
        · rw [List.map_cons, List.find?_cons_of_neg (by simp [subject, hother])]
        · rfl

theorem isFirstMention_of_find? {name : String} {f : Finding}
    (h : (ofKind .unwrittenVariable t.rawFindings).find? (fun g => g.subject = name) = some f) :
    t.IsFirstMention name f.issue := by
  have hunwritten := (isUnwritten_iff.1
    ⟨f, List.mem_of_find?_eq_some h, by simpa using List.find?_some h⟩).2
  rw [← contains_writtenCounters_eq_false_iff] at hunwritten
  rw [ofKind_unwrittenVariable, ofShownCounters, List.find?_flatMap] at h
  simp only [find?_unwrittenVariable hunwritten] at h
  simp only [IsFirstMention, any_mentions_eq]
  obtain ⟨e, he, rfl⟩ := exists_find?_of_findSome?
    (p := fun e => e.2.shownCounters.contains name)
    (g := fun e => Finding.unwrittenVariable e.1 name)
    (by intro e f hf; split at hf <;> simp_all) (by intro e he; simp_all) h
  exact ⟨e, he, rfl⟩

/-! ### All kinds -/

variable (t)

/-- The lint tells all that is wrong with a tree, everything once, and nothing else. -/
theorem isReviewedBy_lint : t.IsReviewedBy t.lint where
  missingStart := by
    rw [ofKind_lint_of_ne t (by decide) (by decide), ofKind_missingStart, apply_ite (List.map issue)]
    rfl
  missingDefaultPortrait := by
    rw [ofKind_lint_of_ne t (by decide) (by decide), ofKind_missingDefaultPortrait, List.map_map]
    rfl
  idMismatch := by
    rw [ofKind_lint_of_ne t (by decide) (by decide), ofKind_idMismatch, List.map_map]
    rfl
  unreachable := by
    rw [ofKind_lint_of_ne t (by decide) (by decide), ofKind_unreachable,
      apply_ite (List.map issue), List.map_map]
    rfl
  unknownCharacter := by
    rw [ofKind_lint_of_ne t (by decide) (by decide), ofKind_unknownCharacter, List.map_map]
    rfl
  danglingChoice := by
    rw [ofKind_lint_of_ne t (by decide) (by decide), ofKind_danglingChoice, List.map_map]
    rfl
  danglingDetour := by
    rw [ofKind_lint_of_ne t (by decide) (by decide), ofKind_danglingDetour, List.map_map]
    rfl
  unknownOperator := by
    rw [ofKind_lint_of_ne t (by decide) (by decide), ofKind_unknownOperator, List.map_map]
    rfl
  exitClash := t.oneForEach_lint (.inl rfl) (fun _ => isClash_iff) fun _ _ => isFirstClash_of_find?
  unwrittenVariable :=
    t.oneForEach_lint (.inr rfl) (fun _ => isUnwritten_iff) fun _ _ => isFirstMention_of_find?
  errors := by
    rw [Report.errors]
    refine List.filter_congr fun i hi => ?_
    obtain ⟨f, -, rfl⟩ := exists_finding_of_mem_lint hi
    cases f <;> rfl
  warnings := by
    rw [Report.warnings]
    refine List.filter_congr fun i hi => ?_
    obtain ⟨f, -, rfl⟩ := exists_finding_of_mem_lint hi
    cases f <;> rfl

end Tree

end Dialogue
