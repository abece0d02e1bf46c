import Mathlib.Data.List.Basic
/-!
# Decimal numbers

The characters of a whole number are its digits, behind a sign if it is negative.
-/

namespace Dialogue.Text

theorem toList_toString_of_nonneg {n : Int} (h : 0 ≤ n) :
    (toString n).toList = Nat.toDigits 10 n.toNat := by
  rw [Int.toString_eq_repr, Int.repr_eq_if, if_pos h, Nat.toList_repr]

theorem toList_toString_of_neg {n : Int} (h : n < 0) :
    (toString n).toList = '-' :: Nat.toDigits 10 (-n).toNat := by
  rw [Int.toString_eq_repr, Int.repr_eq_if, if_neg (by omega), String.toList_append,
    Nat.toList_repr]
  rfl

theorem isDigit_of_mem_toDigits {n : Nat} {c : Char} (h : c ∈ Nat.toDigits 10 n) :
    c.isDigit = true :=
  Nat.isDigit_of_mem_toDigits (by decide) (by decide) h

theorem isDigit_or_minus_of_mem_toString {n : Int} {c : Char} (h : c ∈ (toString n).toList) :
    c.isDigit = true ∨ c = '-' := by
  by_cases hsign : 0 ≤ n
  · rw [toList_toString_of_nonneg hsign] at h
    exact .inl (isDigit_of_mem_toDigits h)
  · rw [toList_toString_of_neg (by omega)] at h
    rcases List.mem_cons.1 h with hminus | hdigit
    · exact .inr hminus
    · exact .inl (isDigit_of_mem_toDigits hdigit)

theorem toList_toString_ne_nil (n : Int) : (toString n).toList ≠ [] := by
  by_cases hsign : 0 ≤ n
  · rw [toList_toString_of_nonneg hsign]
    exact Nat.toDigits_ne_nil
  · rw [toList_toString_of_neg (by omega)]
    exact List.cons_ne_nil _ _

end Dialogue.Text
