import Dialogue.Json.Scan
import Dialogue.Number.Binary64
/-!
# Numerals in JSON text

The parts of a numeral and the number it stands for. A numeral without point and exponent that fits
64 bits is a whole number. Any other is a float: its leading digits, as many as fit 64 bits, are
scaled by one power of ten in float arithmetic, so the last place need not be exact.
-/

namespace Dialogue.Json

/-- The parts of a numeral. -/
structure Numeral where
  negative : Bool
  whole : List Char
  fraction : Option (List Char)
  /-- Whether the exponent is below zero, and its digits. -/
  exponent : Option (Bool × List Char)
  deriving DecidableEq, Repr

/-- A run of digits, which must not be empty. `atEnd` is the fault if the text ends in its place. -/
def digitRun (atEnd : Fault) (cs : List Char) : Except Failure (List Char × List Char) :=
  match cs.takeWhile Char.isDigit, cs with
  | d :: ds, _ => .ok (d :: ds, cs.dropWhile Char.isDigit)
  | [], [] => failAt atEnd []
  | [], c :: rest => failAt .badNumber (c :: rest)

/-- The digits before the point: no zero stands before another digit. -/
def wholePart (atEnd : Fault) (cs : List Char) : Except Failure (List Char × List Char) := do
  let (ds, rest) ← digitRun atEnd cs
  match ds with
  | '0' :: _ :: _ => failAt .badNumber cs.tail
  | _ => return (ds, rest)

/-- The digits behind a point, if there is a point. -/
def fractionPart (atEnd : Fault) : Scan (Option (List Char))
  | '.' :: cs => (digitRun atEnd cs).map fun run => (some run.1, run.2)
  | cs => .ok (none, cs)

/-- The sign of an exponent: whether it is below zero. -/
def exponentSign : List Char → Bool × List Char
  | '-' :: cs => (true, cs)
  | '+' :: cs => (false, cs)
  | cs => (false, cs)

/-- An exponent, if there is one. -/
def exponentPart (atEnd : Fault) : Scan (Option (Bool × List Char))
  | c :: cs =>
    if c = 'e' || c = 'E' then
      let (negative, cs) := exponentSign cs
      (digitRun atEnd cs).map fun run => (some (negative, run.1), run.2)
    else .ok (none, c :: cs)
  | [] => .ok (none, [])

/-- Reads a numeral. `atEnd` is the fault if the text ends where a digit must stand. -/
def numeral (atEnd : Fault) : Scan Numeral := fun cs => do
  let (negative, cs) := match cs with
    | '-' :: cs => (true, cs)
    | cs => (false, cs)
  let (whole, cs) ← wholePart atEnd cs
  let (fraction, cs) ← fractionPart atEnd cs
  let (exponent, cs) ← exponentPart atEnd cs
  return (⟨negative, whole, fraction, exponent⟩, cs)

def digitValue (c : Char) : Nat := c.toNat - '0'.toNat

def digitsValue (ds : List Char) : Nat := ds.foldl (fun n c => 10 * n + digitValue c) 0

/-- Appends digits to a number as long as it stays below `2 ^ 64`: the number reached and how many
digits went into it. -/
def significand (n : Nat) : List Char → Nat × Nat
  | [] => (n, 0)
  | c :: cs =>
    let next := 10 * n + digitValue c
    if next < Number.twoTo 64 then
      let (m, used) := significand next cs
      (m, used + 1)
    else (n, 0)

/-- A power of ten as a float, for exponents up to 308. -/
def powerOfTen (exponent : Nat) : Float := Number.ofDecimal false 1 exponent

/-- Divides by a power of ten, by `10 ^ 308` at a time. After a few of these steps nothing is left
of the number, so `steps` need not be more. -/
def scaledDown (x : Float) (exponent : Nat) : Nat → Float
  | 0 => x
  | steps + 1 =>
    if exponent ≤ 308 then x / powerOfTen exponent
    else if x == 0 then x
    else scaledDown (x / powerOfTen 308) (exponent - 308) steps

/-- A float scaled by a power of ten, if it stays finite. -/
def scaled? (x : Float) (exponent : Int) : Option Float :=
  if exponent < 0 then some (scaledDown x exponent.natAbs 5)
  else if exponent ≤ 308 then
    let y := x * powerOfTen exponent.natAbs
    if y.isInf then none else some y
  else if x == 0 then some x
  else none

/-- The float that a numeral stands for, if it is finite. -/
def Numeral.real? (n : Numeral) : Option Float :=
  let (lead, used) := significand 0 n.whole
  let (lead, places) := significand lead (n.fraction.getD [])
  let power : Int := (n.whole.length - used : Nat) - (places : Int)
  let power := match n.exponent with
    | none => power
    | some (negative, ds) => if negative then power - digitsValue ds else power + digitsValue ds
  (scaled? (Number.ofDecimal false lead 0) power).map fun x => if n.negative then -x else x

/-- The number that a numeral stands for, if there is one. Minus zero is no whole number. -/
def Numeral.number? (n : Numeral) : Option Number :=
  let value := digitsValue n.whole
  if n.fraction.isNone && n.exponent.isNone && !n.negative && value < Number.twoTo 64 then
    some (.whole value)
  else if n.fraction.isNone && n.exponent.isNone && n.negative && value ≤ Number.twoTo 63
      && value ≠ 0 then
    some (.whole (-(value : Int)))
  else n.real?.map .real

/-- How many digits of an exponent stand behind the one that makes it too large for 31 bits. `n` is
what the digits in front of these write. -/
def digitsTooMany (n : Nat) : List Char → Nat
  | [] => 0
  | c :: cs =>
    let next := 10 * n + digitValue c
    if next < Number.twoTo 31 then digitsTooMany next cs else cs.length

/-- How many of a numeral's digits stand behind the place where its number shows to be too large. -/
def Numeral.unread (n : Numeral) : Nat :=
  match n.exponent with
  | some (false, ds) => digitsTooMany 0 ds
  | _ => 0

def scanNumber : Scan Number := fun cs => do
  let (n, rest) ← numeral .endInValue cs
  match n.number? with
  | some x => return (x, rest)
  | none =>
    let length := Text.byteCount cs - Text.byteCount rest
    Text.failBehind (length - n.unread) (.malformed .numberTooLarge) cs

/-- Steps over a numeral, whatever its number. -/
def skipNumber (cs : List Char) : Except Failure (List Char) :=
  (numeral .badNumber cs).map (·.2)

end Dialogue.Json
