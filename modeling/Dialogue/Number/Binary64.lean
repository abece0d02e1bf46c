import Dialogue.Number.Power
/-!
# Binary64 numbers as exact values

A binary64 number is a sign, a whole number and a power of two, or one of the values that are no
number. The other direction rounds a decimal number to the nearest binary64 number, a tie going to
the even neighbour.
-/

namespace Dialogue.Number

/-- What the bits of a binary64 number say. -/
inductive Binary64 where
  /-- The number `mantissa * 2 ^ exponent`, below zero if `negative`. -/
  | finite (negative : Bool) (mantissa : Nat) (exponent : Int)
  | infinite (negative : Bool)
  | nan
  deriving DecidableEq, Repr

namespace Binary64

/-- The value with the given sign bit, exponent field and fraction field. -/
def ofFields (negative : Bool) (field fraction : Nat) : Binary64 :=
  if field = 2047 then
    if fraction = 0 then infinite negative else nan
  else if field = 0 then finite negative fraction (-1074)
  else finite negative (twoTo 52 + fraction) (field - 1075)

def ofBits (bits : UInt64) : Binary64 :=
  let word := bits.toNat
  ofFields (word / twoTo 63 = 1) (word / twoTo 52 % twoTo 11) (word % twoTo 52)

def ofFloat (x : Float) : Binary64 := ofBits x.toBits

end Binary64

/-- The power of two in front of the numerator and of the denominator. -/
def twoFactors (exponent : Int) : Nat × Nat :=
  (twoTo exponent.toNat, twoTo (-exponent).toNat)

/-- The power of ten in front of the numerator and of the denominator. -/
def tenFactors (exponent : Int) : Nat × Nat :=
  (tenTo exponent.toNat, tenTo (-exponent).toNat)

/-- The quotient rounded to the nearest whole number, a tie going to the even one. -/
def roundDiv (num den : Nat) : Nat :=
  let floor := num / den
  let rest := num % den
  if 2 * rest < den then floor
  else if den < 2 * rest then floor + 1
  else if floor % 2 = 0 then floor else floor + 1

/-- The bits of `mantissa * 2 ^ exponent` for a mantissa of at most `2 ^ 53`, where the exponent is
-1074 or the mantissa at least `2 ^ 52`. Too large values are infinite. -/
def pack (mantissa : Nat) (exponent : Int) : Nat :=
  if mantissa < twoTo 52 then mantissa
  else
    let (mantissa, exponent) :=
      if mantissa = twoTo 53 then (twoTo 52, exponent + 1) else (mantissa, exponent)
    if 2047 ≤ exponent + 1075 then 2047 * twoTo 52
    else (exponent + 1075).toNat * twoTo 52 + (mantissa - twoTo 52)

/-- The bits of the binary64 number nearest to a positive fraction. -/
def nearestBits (num den : Nat) : Nat :=
  let guess : Int := (Nat.log2 num : Int) - (Nat.log2 den : Int) - 52
  -- The guess is right or one too high.
  let (a, b) := twoFactors (-guess)
  let exponent := if num * a < twoTo 52 * (den * b) then guess - 1 else guess
  let exponent := if exponent < -1074 then -1074 else exponent
  let (a, b) := twoFactors (-exponent)
  pack (roundDiv (num * a) (den * b)) exponent

/-- The float nearest to `digits * 10 ^ exponent`, below zero if `negative`. Beyond the largest
float it is infinite. -/
def ofDecimal (negative : Bool) (digits : Nat) (exponent : Int) : Float :=
  let size : Int := (Nat.toDigits 10 digits).length + exponent
  let bits :=
    if digits = 0 || size < -400 then 0
    else if 400 < size then 2047 * twoTo 52
    else
      let (a, b) := tenFactors exponent
      nearestBits (digits * a) b
  let x := Float.ofBits (UInt64.ofNat bits)
  if negative then -x else x

end Dialogue.Number
