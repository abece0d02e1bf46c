/-!
# Whole numbers in text

Decimal digits with at most one sign before them, as a person types them, the digits of other bases,
and the bounds of the numbers that a story can hold.
-/

namespace Dialogue.Text

def digit? (c : Char) : Option Nat := if c.isDigit then some (c.toNat - '0'.toNat) else none

def hexDigit? (c : Char) : Option Nat :=
  if c.isDigit then some (c.toNat - '0'.toNat)
  else if 'a' ≤ c && c ≤ 'f' then some (c.toNat - 'a'.toNat + 10)
  else if 'A' ≤ c && c ≤ 'F' then some (c.toNat - 'A'.toNat + 10)
  else none

def hexNumber? (ds : List Char) : Option Nat :=
  ds.foldlM (fun n c => (hexDigit? c).map (16 * n + ·)) 0

/-- The number that a run of decimal digits writes; there must be at least one. -/
def natural? (cs : List Char) : Option Nat :=
  match cs with
  | [] => none
  | _ => cs.foldlM (fun n c => (digit? c).map (10 * n + ·)) 0

/-- The number that digits write, with at most one sign before them. -/
def integer? (cs : List Char) : Option Int :=
  match cs with
  | '+' :: ds => (natural? ds).map Int.ofNat
  | '-' :: ds => (natural? ds).map fun n => - Int.ofNat n
  | ds => (natural? ds).map Int.ofNat

def leastCount : Int := -9223372036854775808

/-- The greatest value of a counter. -/
def greatestCount : Int := 9223372036854775807

/-- One more than the greatest size. -/
def sizeBound : Nat := 18446744073709551616

def count? (s : String) : Option Int64 :=
  match integer? s.toList with
  | some i => if leastCount ≤ i && i ≤ greatestCount then some (Int64.ofInt i) else none
  | none => none

/-- A size as a person types it; a plus sign is allowed. -/
def size? (s : String) : Option Nat :=
  let digits := match s.toList with
    | '+' :: ds => ds
    | ds => ds
  match natural? digits with
  | some n => if n < sizeBound then some n else none
  | none => none

end Dialogue.Text
