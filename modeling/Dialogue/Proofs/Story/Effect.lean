import Dialogue.Story.Choice
import Mathlib.Data.List.Basic
/-!
# What a choice changes

The flags and the counters after the changes of a choice, one name at a time.  Sums and differences
are said of whole numbers: each one is exact and then brought to the nearest number of 64 bits,
before the next adjustment sees it.  These statements determine the state of the story
(`Choice.changes_iff`).
-/

namespace Dialogue

namespace Flags

theorem contains_foldl_set (flags : Flags) (added : List String) (flag : String) :
    (added.foldl Flags.set flags).contains flag =
      (decide (flag ∈ added) || flags.contains flag) := by
  induction added generalizing flags with
  | nil => simp
  | cons first rest ih =>
      rw [List.foldl_cons, ih, contains_set]
      by_cases h : flag = first <;> simp [h]

theorem contains_foldl_clear (flags : Flags) (removed : List String) (flag : String) :
    (removed.foldl Flags.clear flags).contains flag =
      (decide (flag ∉ removed) && flags.contains flag) := by
  induction removed generalizing flags with
  | nil => simp
  | cons first rest ih =>
      rw [List.foldl_cons, ih, contains_clear]
      by_cases h : flag = first <;> simp [h]

theorem ext_contains {f g : Flags} (h : ∀ flag, f.contains flag = g.contains flag) : f = g := by
  refine congrArg Flags.mk (SortedMap.ext_get? fun flag => ?_)
  have hflag := h flag
  unfold contains SortedMap.contains at hflag
  cases hf : f.names.get? flag <;> cases hg : g.names.get? flag <;> simp_all

end Flags

namespace Counters

theorem value?_eq (counters : Counters) (key : String) :
    counters.value? key =
      if counters.contains key then some (counters.get key) else Option.none := by
  rw [get, show counters.contains key = (counters.value? key).isSome from rfl]
  cases counters.value? key <;> rfl

theorem ext_value? {c d : Counters} (h : ∀ key, c.value? key = d.value? key) : c = d :=
  congrArg Counters.mk (SortedMap.ext_get? h)

end Counters

/-- A flag that is both cleared and set is set. -/
theorem FlagChanges.contains_apply (changes : FlagChanges) (flags : Flags) (flag : String) :
    (changes.apply flags).contains flag =
      (decide (flag ∈ changes.added) ||
        (decide (flag ∉ changes.removed) && flags.contains flag)) := by
  rw [apply, Flags.contains_foldl_set, Flags.contains_foldl_clear]

namespace Adjustment

theorem value?_apply (a : Adjustment) (counters : Counters) (key : String) :
    (a.apply counters).value? key =
      if key = a.key then some (a.effective.apply (counters.get a.key) a.value)
      else counters.value? key := by
  rw [apply, Counters.value?_set]

theorem get_apply (a : Adjustment) (counters : Counters) (key : String) :
    (a.apply counters).get key =
      if key = a.key then a.effective.apply (counters.get key) a.value else counters.get key := by
  rw [Counters.get, value?_apply]
  by_cases hkey : key = a.key
  · rw [if_pos hkey, if_pos hkey, hkey, Option.getD_some]
  · rw [if_neg hkey, if_neg hkey, Counters.get]

/-- The value of a counter is changed by its own adjustments only, one after the other. -/
theorem get_foldl_apply (adjustments : List Adjustment) (counters : Counters) (key : String) :
    (adjustments.foldl (fun counters a => a.apply counters) counters).get key =
      (adjustments.filter fun a => a.key = key).foldl
        (fun value a => a.effective.apply value a.value) (counters.get key) := by
  induction adjustments generalizing counters with
  | nil => rfl
  | cons a rest ih =>
      rw [List.foldl_cons, ih, get_apply]
      by_cases hkey : key = a.key
      · rw [if_pos hkey, List.filter_cons_of_pos (by simp [hkey]), List.foldl_cons]
      · rw [if_neg hkey, List.filter_cons_of_neg (by simp [Ne.symm hkey])]

/-- A counter has been written after some adjustments if it had been before or one of them is on
it. -/
theorem contains_foldl_apply (adjustments : List Adjustment) (counters : Counters) (key : String) :
    (adjustments.foldl (fun counters a => a.apply counters) counters).contains key =
      (decide (key ∈ adjustments.map (·.key)) || counters.contains key) := by
  induction adjustments generalizing counters with
  | nil => simp
  | cons a rest ih =>
      rw [List.foldl_cons, ih, apply, Counters.contains_set]
      by_cases hkey : key = a.key <;> simp [hkey]

end Adjustment

/-! ## Exact values -/

def clamped (n : Int) : Int := max Int64.minValue.toInt (min n Int64.maxValue.toInt)

theorem toInt_ofIntClamp (n : Int) : (Int64.ofIntClamp n).toInt = clamped n := by
  have hbounds : Int64.minValue.toInt ≤ Int64.maxValue.toInt := by decide
  unfold clamped
  by_cases hlow : Int64.minValue.toInt ≤ n
  · by_cases hhigh : n ≤ Int64.maxValue.toInt
    · rw [Int64.toInt_ofIntClamp hlow hhigh]
      omega
    · simp only [Int64.ofIntClamp, hlow, hhigh, dif_pos, dif_neg, not_false_eq_true]
      omega
  · simp only [Int64.ofIntClamp, hlow, dif_neg, not_false_eq_true]
    omega

namespace Adjustment

/-- What an adjustment makes of a value: the exact sum or difference, as near as 64 bits come to it,
or the adjustment's own value. -/
def exact (a : Adjustment) (n : Int) : Int :=
  match a.operation with
  | some .add => clamped (n + a.value.toInt)
  | some .subtract => clamped (n - a.value.toInt)
  | some .set => a.value.toInt
  | none => a.value.toInt

theorem toInt_apply (a : Adjustment) (value : Int64) :
    (a.effective.apply value a.value).toInt = a.exact value.toInt := by
  rw [effective, exact]
  cases a.operation with
  | none => rfl
  | some operation =>
      cases operation with
      | add => exact toInt_ofIntClamp _
      | subtract => exact toInt_ofIntClamp _
      | set => rfl

theorem toInt_foldl_apply (adjustments : List Adjustment) (value : Int64) :
    (adjustments.foldl (fun value a => a.effective.apply value a.value) value).toInt =
      adjustments.foldl (fun n a => a.exact n) value.toInt :=
  (List.foldl_hom Int64.toInt fun value a => (a.toInt_apply value).symm).symm

end Adjustment

/-- A name that is neither of the two for sums and differences sets the counter. -/
theorem Operation.ofName_eq_set {name : String} (hadd : name ≠ "add")
    (hsubtract : name ≠ "subtract") : ofName name = set := by
  rw [ofName, if_neg hadd, if_neg hsubtract]

/-! ## Choices -/

namespace Choice

def flagsToSet (c : Choice) : List String := (c.flagChanges.bind (·.add)).getD []

def flagsToClear (c : Choice) : List String := (c.flagChanges.bind (·.remove)).getD []

/-- The state of the story after the changes of a choice, said name by name. -/
structure Changes (c : Choice) (w w' : World) : Prop where
  flag_iff : ∀ flag, w'.flags.contains flag = true ↔
    flag ∈ c.flagsToSet ∨ w.flags.contains flag = true ∧ flag ∉ c.flagsToClear
  /-- A counter that is adjusted has the value that its adjustments lead to from the old one. -/
  adjusted : ∀ key ∈ c.counterAdjustments.map (·.key), ∃ value,
    w'.counters.value? key = some value ∧
      value.toInt = (c.counterAdjustments.filter fun a => a.key = key).foldl
        (fun n a => a.exact n) (w.counters.get key).toInt
  /-- Any other keeps its value, or stays unwritten. -/
  kept : ∀ key ∉ c.counterAdjustments.map (·.key),
    w'.counters.value? key = w.counters.value? key

theorem contains_effect (c : Choice) (w : World) (flag : String) :
    (c.effect w).flags.contains flag = true ↔
      flag ∈ c.flagsToSet ∨ w.flags.contains flag = true ∧ flag ∉ c.flagsToClear := by
  rw [effect, flagsToSet, flagsToClear]
  cases c.flagChanges with
  | none => simp
  | some changes =>
      show (changes.apply w.flags).contains flag = true ↔
        flag ∈ changes.added ∨ w.flags.contains flag = true ∧ flag ∉ changes.removed
      rw [FlagChanges.contains_apply, Bool.or_eq_true, Bool.and_eq_true, decide_eq_true_eq,
        decide_eq_true_eq, and_comm]

theorem value?_effect (c : Choice) (w : World) (key : String) :
    (c.effect w).counters.value? key =
      if key ∈ c.counterAdjustments.map (·.key) then
        some ((c.counterAdjustments.filter fun a => a.key = key).foldl
          (fun value a => a.effective.apply value a.value) (w.counters.get key))
      else w.counters.value? key := by
  rw [effect, Counters.value?_eq, Adjustment.contains_foldl_apply, Adjustment.get_foldl_apply]
  by_cases hkey : key ∈ c.counterAdjustments.map (·.key)
  · rw [if_pos hkey, decide_eq_true hkey, Bool.true_or, if_pos rfl]
  · -- no adjustment is on the counter, so that none is left by the filter
    have hnone : (c.counterAdjustments.filter fun a => a.key = key) = [] := by
      refine List.filter_eq_nil_iff.2 fun a ha heq => hkey ?_
      exact of_decide_eq_true heq ▸ List.mem_map_of_mem ha
    rw [if_neg hkey, decide_eq_false hkey, Bool.false_or, hnone, List.foldl_nil,
      ← Counters.value?_eq]

theorem changes_effect (c : Choice) (w : World) : c.Changes w (c.effect w) where
  flag_iff := c.contains_effect w
  adjusted := by
    intro key hkey
    refine ⟨_, (c.value?_effect w key).trans (if_pos hkey), ?_⟩
    exact Adjustment.toInt_foldl_apply _ _
  kept := by
    intro key hkey
    rw [c.value?_effect w key, if_neg hkey]

/-- What holds of every name determines the state of the story. -/
theorem Changes.unique {c : Choice} {w w₁ w₂ : World} (h₁ : c.Changes w w₁)
    (h₂ : c.Changes w w₂) : w₁ = w₂ := by
  have hflags : w₁.flags = w₂.flags := by
    refine Flags.ext_contains fun flag => ?_
    rw [Bool.eq_iff_iff, h₁.flag_iff, h₂.flag_iff]
  have hcounters : w₁.counters = w₂.counters := by
    refine Counters.ext_value? fun key => ?_
    by_cases hkey : key ∈ c.counterAdjustments.map (·.key)
    · obtain ⟨value₁, hvalue₁, hint₁⟩ := h₁.adjusted key hkey
      obtain ⟨value₂, hvalue₂, hint₂⟩ := h₂.adjusted key hkey
      have hsame : value₁ = value₂ := Int64.toInt_inj.1 (hint₁.trans hint₂.symm)
      rw [hvalue₁, hvalue₂, hsame]
    · rw [h₁.kept key hkey, h₂.kept key hkey]
  cases w₁
  cases w₂
  cases hflags
  cases hcounters
  rfl

theorem changes_iff {c : Choice} {w w' : World} : c.Changes w w' ↔ w' = c.effect w :=
  ⟨fun h => h.unique (c.changes_effect w), fun h => h ▸ c.changes_effect w⟩

end Choice

end Dialogue
