import Dialogue.Number.Shortest
/-!
# Floats in text

A float is written with its shortest digits, either positionally or with an exponent. Which
exponents are positional is the format's choice.
-/

namespace Dialogue.Number

/-- How a format writes floats. -/
structure Style where
  /-- Whether a number whose first digit stands at this power of ten is written positionally. -/
  positional : Int → Bool
  /-- Which of two equally near shortest decimals is written. -/
  tie : Tie
  /-- The word for infinity, below zero if asked. -/
  infinity : Bool → String
  /-- The word for the value that is no number. -/
  nan : String

def infinityWord (negative : Bool) : String := if negative then "-inf" else "inf"

/-- In JSON a number is positional from `10 ^ -5` to below `10 ^ 16`, a tie goes to the even digit,
and what is no number is `null`. -/
def Style.json : Style := ⟨fun e => -5 ≤ e && e ≤ 15, .even, fun _ => "null", "null"⟩

/-- In layout files a number is always positional, and a tie goes away from zero. -/
def Style.file : Style := ⟨fun _ => true, .away, infinityWord, "NaN"⟩

/-- A decimal written positionally, with at least one digit on both sides of the point. -/
def positionalText (d : Decimal) : List Char :=
  if d.exponent < 0 then
    ['0', '.'] ++ List.replicate ((-d.exponent).toNat - 1) '0' ++ d.digits
  else
    let whole := d.exponent.toNat + 1
    let padded := d.digits ++ List.replicate (whole - d.digits.length) '0'
    let fraction := padded.drop whole
    padded.take whole ++ ['.'] ++ (if fraction.isEmpty then ['0'] else fraction)

/-- A decimal written with an exponent: the sign is always shown, and a lone digit has no point. -/
def exponentText (d : Decimal) : List Char :=
  let mantissa := match d.digits with
    | [] => ['0']
    | [c] => [c]
    | c :: cs => c :: '.' :: cs
  let sign := if d.exponent < 0 then '-' else '+'
  mantissa ++ ['e', sign] ++ Nat.toDigits 10 d.exponent.natAbs

def Style.write (style : Style) (x : Float) : String :=
  match Binary64.ofFloat x with
  | .nan => style.nan
  | .infinite negative => style.infinity negative
  | .finite negative mantissa exponent =>
    let d := shortest style.tie mantissa exponent
    let text := if style.positional d.exponent then positionalText d else exponentText d
    String.ofList (if negative then '-' :: text else text)

/-- A float with a fixed number of places after the point, rounded from its exact value, a tie
going to the even digit. -/
def fixed (places : Nat) (x : Float) : String :=
  match Binary64.ofFloat x with
  | .nan => "NaN"
  | .infinite negative => infinityWord negative
  | .finite negative mantissa exponent =>
    let (a, b) := twoFactors exponent
    let scaled := roundDiv (mantissa * a * tenTo places) b
    let digits := Nat.toDigits 10 scaled
    let padded := List.replicate (places + 1 - digits.length) '0' ++ digits
    let whole := padded.length - places
    let text := padded.take whole ++ (if places = 0 then [] else '.' :: padded.drop whole)
    String.ofList (if negative then '-' :: text else text)

end Dialogue.Number
