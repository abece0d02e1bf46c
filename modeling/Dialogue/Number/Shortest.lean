import Dialogue.Number.Binary64
/-!
# Shortest digits

The fewest decimal digits that read back as the same binary64 number, and of those the nearest to
it. Of two equally near ones a tie decides. All arithmetic is on whole numbers.
-/

namespace Dialogue.Number

/-- A decimal number: the first digit stands at `10 ^ exponent`, each further one a place lower. -/
structure Decimal where
  digits : List Char
  exponent : Int
  deriving DecidableEq, Repr

/-- Which of two equally near decimals is taken. -/
inductive Tie where
  /-- The one whose last digit is even. -/
  | even
  /-- The one farther from zero. -/
  | away
  deriving DecidableEq, Repr

def Tie.keeps : Tie → Nat → Bool
  | even, below => below % 2 = 0
  | away, _ => false

/-- The numbers that round to `mantissa * 2 ^ exponent`, in quarters of its last place: from
`low` to `high` around `4 * mantissa`. The ends belong to them iff the mantissa is even. -/
structure Neighbourhood where
  low : Nat
  centre : Nat
  high : Nat
  closed : Bool

/-- The neighbourhood of a number. Below a power of two the next number is only half as far. -/
def neighbourhood (mantissa : Nat) (exponent : Int) : Neighbourhood where
  low := if mantissa = twoTo 52 && -1074 < exponent then 4 * mantissa - 1 else 4 * mantissa - 2
  centre := 4 * mantissa
  high := 4 * mantissa + 2
  closed := mantissa % 2 = 0

/-- Whether `c * den` lies in the neighbourhood scaled by `num`. -/
def Neighbourhood.holds (n : Neighbourhood) (num den c : Nat) : Bool :=
  if n.closed then n.low * num ≤ c * den && c * den ≤ n.high * num
  else n.low * num < c * den && c * den < n.high * num

/-- The place of the first digit of a positive fraction. No binary64 number is below
`10 ^ -400`. -/
def leadingPlace (num den : Nat) : Int :=
  ((Nat.toDigits 10 (num * tenTo 400 / den)).length : Int) - 401

/-- The multiple of `10 ^ place` in the neighbourhood that is nearest to its centre, if there is
one: only the two multiples around the centre can be it. -/
def Neighbourhood.multipleAt? (n : Neighbourhood) (tie : Tie) (exponent place : Int) :
    Option Nat :=
  let (a, b) := twoFactors (exponent - 2)
  let (c, d) := tenFactors (-place)
  let num := a * c
  let den := b * d
  let below := n.centre * num / den
  let rest := n.centre * num - below * den
  let nearer := if 2 * rest < den || (2 * rest = den && tie.keeps below) then below else below + 1
  let other := if nearer = below then below + 1 else below
  if n.holds num den nearer then some nearer
  else if n.holds num den other then some other
  else none

/-- The digits of a multiple of `10 ^ place`, without zeros at the end. -/
def decimalOf (multiple : Nat) (place : Int) : Decimal :=
  let all := Nat.toDigits 10 multiple
  ⟨(all.reverse.dropWhile (· = '0')).reverse, (all.length : Int) - 1 + place⟩

/-- The first of the grids, from the coarsest on, that has a point in the neighbourhood. Seventeen
digits always suffice. -/
def shortestFrom (n : Neighbourhood) (tie : Tie) (exponent place : Int) : Nat → Decimal
  | 0 => ⟨['0'], 0⟩
  | tries + 1 =>
    match n.multipleAt? tie exponent place with
    | some multiple => decimalOf multiple place
    | none => shortestFrom n tie exponent (place - 1) tries

/-- The shortest decimal that reads back as `mantissa * 2 ^ exponent`. -/
def shortest (tie : Tie) (mantissa : Nat) (exponent : Int) : Decimal :=
  if mantissa = 0 then ⟨['0'], 0⟩
  else
    let (a, b) := twoFactors exponent
    shortestFrom (neighbourhood mantissa exponent) tie exponent (leadingPlace (mantissa * a) b) 20

end Dialogue.Number
