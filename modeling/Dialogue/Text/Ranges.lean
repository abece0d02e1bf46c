/-!
# Sets of characters given by ranges

A property of characters is kept as its code point ranges in increasing order, and asked by
halving the table.
-/

namespace Dialogue.Text

/-- Whether `n` lies in one of the ranges at the places from `lo` to before `hi`, for ranges in
increasing order. Each step halves the places left, so `steps` beyond their number's binary length
are never used. -/
def inRangesBetween (ranges : Array (Nat × Nat)) (n : Nat) : Nat → Nat → Nat → Bool
  | 0, _, _ => false
  | steps + 1, lo, hi =>
    if lo < hi then
      let mid := (lo + hi) / 2
      match ranges[mid]? with
      | none => false
      | some (first, last) =>
        if n < first then inRangesBetween ranges n steps lo mid
        else if last < n then inRangesBetween ranges n steps (mid + 1) hi
        else true
    else false

/-- Whether the character lies in one of the ranges, which stand in increasing order. -/
def inRanges (ranges : Array (Nat × Nat)) (c : Char) : Bool :=
  inRangesBetween ranges c.toNat (ranges.size + 1) 0 ranges.size

end Dialogue.Text
