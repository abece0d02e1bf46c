import Dialogue.Story.Tree
import Mathlib
/-!
# Which gates are open, and which candidate is picked

A gate asks for flags that are set, for flags that are not, and for conditions on counters.
`Passes` says when all of it is the case, number by number, and `AskAlike` when two gates ask for
the same, however their lists are written.  A candidate among others is known by its place, so that
of equal candidates the one that is picked can be told from the rest (`firstOpen_zipIdx_iff`).
-/

namespace Dialogue

/-! ## What a gate asks for -/

/-- What a comparison says of two whole numbers.  A sign that is not known says what never holds. -/
def Comparison.Relates : Comparison → Int → Int → Prop
  | equal, left, right => left = right
  | above, left, right => left > right
  | below, left, right => left < right
  | atLeast, left, right => left ≥ right
  | atMost, left, right => left ≤ right
  | other _ _, _, _ => False

/-- Whether all that a gate asks for is the case.  A counter that was never written counts as
zero. -/
structure Gate.Satisfied (g : Gate) (w : World) : Prop where
  required : ∀ flag ∈ g.requiredFlags, flag ∈ w.flags.toList
  blocked : ∀ flag ∈ g.blockedFlags, flag ∉ w.flags.toList
  conditions : ∀ condition ∈ g.counterConditions,
    condition.comparison.Relates ((w.counters.value? condition.key).getD 0).toInt
      condition.value.toInt

def Passes (gate : Option Gate) (w : World) : Prop :=
  gate = none ∨ ∃ g, gate = some g ∧ g.Satisfied w

/-- Whether two optional gates ask for the same flags and conditions.  Whether a list that asks for
nothing is written, in which order the others are and how often they name the same plays no part. -/
structure AskAlike (gate gate' : Option Gate) : Prop where
  required : ∀ flag,
    flag ∈ (gate.getD .free).requiredFlags ↔ flag ∈ (gate'.getD .free).requiredFlags
  blocked : ∀ flag,
    flag ∈ (gate.getD .free).blockedFlags ↔ flag ∈ (gate'.getD .free).blockedFlags
  conditions : ∀ condition,
    condition ∈ (gate.getD .free).counterConditions ↔
      condition ∈ (gate'.getD .free).counterConditions

theorem Flags.contains_iff {flags : Flags} {flag : String} :
    flags.contains flag = true ↔ flag ∈ flags.toList :=
  SortedMap.mem_keys_iff.symm

theorem Comparison.holds_iff {c : Comparison} {left right : Int64} :
    c.holds left right = true ↔ c.Relates left.toInt right.toInt := by
  cases c with
  | equal => simp [holds, Relates, Int64.toInt_inj]
  | above => simp [holds, Relates, Int64.lt_iff_toInt_lt]
  | below => simp [holds, Relates, Int64.lt_iff_toInt_lt]
  | atLeast => simp [holds, Relates, Int64.le_iff_toInt_le]
  | atMost => simp [holds, Relates, Int64.le_iff_toInt_le]
  | other sign unlisted => simp [holds, Relates]

theorem Gate.isOpen_iff {g : Gate} {w : World} : g.isOpen w = true ↔ g.Satisfied w := by
  simp only [isOpen, Bool.and_eq_true, Bool.not_eq_true', List.all_eq_true, List.any_eq_false,
    Flags.contains_iff, Condition.holds, Comparison.holds_iff, Counters.get]
  exact ⟨fun ⟨⟨hrequired, hblocked⟩, hconditions⟩ => ⟨hrequired, hblocked, hconditions⟩,
    fun h => ⟨⟨h.required, h.blocked⟩, h.conditions⟩⟩

theorem isOpen_iff {gate : Option Gate} {w : World} : isOpen gate w = true ↔ Passes gate w := by
  cases gate with
  | none => simp [isOpen, Passes]
  | some g => simp [isOpen, Passes, Gate.isOpen_iff]

/-- No gate asks for as much as one that asks for nothing. -/
theorem passes_iff {gate : Option Gate} {w : World} :
    Passes gate w ↔ (gate.getD .free).Satisfied w := by
  cases gate with
  | none =>
      have hfree : Gate.free.Satisfied w := Gate.isOpen_iff.1 rfl
      simpa [Passes] using hfree
  | some g => simp [Passes]

theorem AskAlike.symm {gate gate' : Option Gate} (h : AskAlike gate gate') : AskAlike gate' gate where
  required flag := (h.required flag).symm
  blocked flag := (h.blocked flag).symm
  conditions condition := (h.conditions condition).symm

theorem AskAlike.passes {gate gate' : Option Gate} (h : AskAlike gate gate') {w : World}
    (hpasses : Passes gate w) : Passes gate' w := by
  have hg := passes_iff.1 hpasses
  exact passes_iff.2 {
    required := fun flag hflag => hg.required flag ((h.required flag).2 hflag)
    blocked := fun flag hflag => hg.blocked flag ((h.blocked flag).2 hflag)
    conditions := fun condition hmem =>
      hg.conditions condition ((h.conditions condition).2 hmem) }

theorem AskAlike.isOpen_eq {gate gate' : Option Gate} (h : AskAlike gate gate') (w : World) :
    isOpen gate w = isOpen gate' w := by
  rw [Bool.eq_iff_iff, isOpen_iff, isOpen_iff]
  exact ⟨h.passes, h.symm.passes⟩

/-! ## Candidates and their places -/

variable {α β : Type} [Gated α] [Gated β]

/-- A candidate with its place among others stands behind its own gate. -/
instance : Gated (α × Nat) := ⟨fun entry => Gated.gate entry.1⟩

theorem firstOpen_cons (c : α) (rest : List α) (w : World) :
    firstOpen (c :: rest) w = if isOpen (Gated.gate c) w then some c else firstOpen rest w := by
  rw [firstOpen, List.find?_cons]
  cases isOpen (Gated.gate c) w <;> rfl

theorem map_fst_firstOpen_zipIdx (candidates : List α) (w : World) :
    (firstOpen candidates.zipIdx w).map (·.1) = firstOpen candidates w := by
  have hfst : candidates.zipIdx.map (·.1) = candidates := List.zipIdx_map_fst 0 candidates
  conv_rhs => rw [← hfst, firstOpen, List.find?_map]
  rfl

theorem firstOpen_zipIdx_iff {candidates : List α} {w : World} {i : Nat}
    (hi : i < candidates.length) :
    firstOpen candidates.zipIdx w = some (candidates[i], i) ↔
      Passes (Gated.gate candidates[i]) w ∧
        ∀ j (hj : j < i), ¬ Passes (Gated.gate candidates[j]) w := by
  rw [firstOpen, List.find?_eq_some_iff_getElem]
  simp only [List.getElem_zipIdx, List.length_zipIdx, Nat.zero_add, Prod.mk.injEq,
    Bool.not_eq_true', ← Bool.not_eq_true]
  constructor
  · rintro ⟨hopen, k, hk, heq, hbefore⟩
    obtain rfl := heq.2
    exact ⟨isOpen_iff.1 hopen, fun j hj => mt isOpen_iff.2 (hbefore j hj)⟩
  · rintro ⟨hpasses, hbefore⟩
    exact ⟨isOpen_iff.2 hpasses, i, hi, ⟨rfl, rfl⟩, fun j hj => mt isOpen_iff.1 (hbefore j hj)⟩

theorem firstOpen_eq_none_iff {candidates : List α} {w : World} :
    firstOpen candidates w = none ↔ ∀ c ∈ candidates, ¬ Passes (Gated.gate c) w := by
  simp only [firstOpen, List.find?_eq_none, isOpen_iff]

theorem firstOpen_append (candidates more : List α) (w : World) :
    firstOpen (candidates ++ more) w = (firstOpen candidates w).or (firstOpen more w) :=
  List.find?_append

theorem place_firstOpen_eq {candidates : List α} {others : List β} (w : World)
    (h : List.Forall₂ (fun a b => AskAlike (Gated.gate a) (Gated.gate b)) candidates others)
    (place : Nat) :
    (firstOpen (others.zipIdx place) w).map (·.2) =
      (firstOpen (candidates.zipIdx place) w).map (·.2) := by
  induction h generalizing place with
  | nil => rfl
  | @cons a b candidates others halike _ ih =>
      have hopen : isOpen (Gated.gate (b, place)) w = isOpen (Gated.gate (a, place)) w :=
        (halike.isOpen_eq w).symm
      rw [List.zipIdx_cons, List.zipIdx_cons, firstOpen_cons, firstOpen_cons, hopen]
      split
      · rfl
      · exact ih (place + 1)

/-- The one order of priority, for variations, for detours and for choices alike.  Of several
candidates the one at a place is picked exactly if its gate lets through and none before it does,
and none is picked exactly if no gate lets through.  So the pick is the same wherever the gates ask
for the same, however they are written, and candidates that are added behind the others leave it as
it is, or are picked from in their own order where there was no pick. -/
theorem firstOpen_by_place (candidates : List α) (w : World) :
    (firstOpen candidates.zipIdx w).map (·.1) = firstOpen candidates w ∧
      (∀ i (hi : i < candidates.length),
        firstOpen candidates.zipIdx w = some (candidates[i], i) ↔
          Passes (Gated.gate candidates[i]) w ∧
            ∀ j (hj : j < i), ¬ Passes (Gated.gate candidates[j]) w) ∧
      (firstOpen candidates w = none ↔ ∀ c ∈ candidates, ¬ Passes (Gated.gate c) w) ∧
      ((∀ v : Variation, Gated.gate v = v.gate) ∧ (∀ d : Detour, Gated.gate d = some d.gate) ∧
        ∀ c : Choice, Gated.gate c = c.gate) ∧
      (∀ others : List β,
        List.Forall₂ (fun a b => AskAlike (Gated.gate a) (Gated.gate b)) candidates others →
        (firstOpen others.zipIdx w).map (·.2) = (firstOpen candidates.zipIdx w).map (·.2)) ∧
      ∀ more : List α, firstOpen (candidates ++ more).zipIdx w =
        (firstOpen candidates.zipIdx w).or (firstOpen (more.zipIdx candidates.length) w) := by
  refine ⟨map_fst_firstOpen_zipIdx candidates w, fun i hi => firstOpen_zipIdx_iff hi,
    firstOpen_eq_none_iff, ⟨fun v => rfl, fun d => rfl, fun c => rfl⟩,
    fun others halike => place_firstOpen_eq w halike 0, fun more => ?_⟩
  rw [List.zipIdx_append, Nat.zero_add]
  exact firstOpen_append candidates.zipIdx (more.zipIdx candidates.length) w

/-- Of two equal detours the one that was written first is taken. -/
example :
    let always : Detour := ⟨"yard", .free⟩
    firstOpen [⟨"tower", Gate.free.require "pass"⟩, always, always].zipIdx ⟨.none, .none⟩ =
      some (always, 1) := by
  decide +kernel

end Dialogue
