import Dialogue.Number.Binary64
import Dialogue.Ron.Scan
/-!
# Numerals in RON text

Whole numbers in several bases and floats. What a numeral may look like depends on which of the two
it is read as.
-/

namespace Dialogue.Ron

/-- Whether the character may stand in a whole number of some base. -/
def isDigitChar (c : Char) : Bool := (Text.hexDigit? c).isSome || c = '_'

def isFloatChar (c : Char) : Bool :=
  c.isDigit || c = 'e' || c = 'E' || c = '.' || c = '+' || c = '-' || c = '_'

/-- Goes on from a number over one more digit of a base, up to a greatest number. An underscore
changes nothing. -/
def nextDigit (greatest base n : Nat) (c : Char) : Except ReadError Nat :=
  if c = '_' then .ok n
  else if greatest < base * n then .error .outOfRange
  else
    match Text.hexDigit? c with
    | none => .error .noWhole
    | some d =>
      if base ≤ d then .error .noWhole
      else if greatest < base * n + d then .error .outOfRange
      else .ok (base * n + d)

/-- Reads the digits of a base. Whatever is wrong with them shows behind them. -/
def naturalIn (greatest base : Nat) : Scan Nat := fun cs =>
  match cs.takeWhile isDigitChar with
  | [] => failBefore .noWhole cs
  | '_' :: _ => failBefore .leadingUnderscore cs
  | ds =>
    let rest := cs.dropWhile isDigitChar
    match ds.foldlM (nextDigit greatest base) 0 with
    | .ok n => .ok (n, rest)
    | .error e => failBefore e rest

/-- Reads a whole number without a sign, in decimal or after `0x`, `0b` or `0o`. -/
def natural (greatest : Nat) : Scan Nat
  | '0' :: 'x' :: cs => naturalIn greatest 16 cs
  | '0' :: 'b' :: cs => naturalIn greatest 2 cs
  | '0' :: 'o' :: cs => naturalIn greatest 8 cs
  | cs => naturalIn greatest 10 cs

/-- Takes off a sign: whether the number is below zero. -/
def takeSign : List Char → Bool × List Char
  | '-' :: cs => (true, cs)
  | '+' :: cs => (false, cs)
  | cs => (false, cs)

def startsSigned (cs : List Char) : Bool := cs.head?.any fun c => c = '-' || c = '+'

/-- Reads a size: a whole number without a sign that is in range. -/
def size : Scan Nat := natural (Text.sizeBound - 1)

/-- Reads a count: a whole number with a sign or none that is in range. -/
def count : Scan Int
  | [] => failBefore .endOfText []
  | c :: rest =>
    match takeSign (c :: rest) with
    | (true, cs) => (natural Text.leastCount.natAbs cs).map fun r => (-(r.1 : Int), r.2)
    | (false, cs) => (natural Text.greatestCount.toNat cs).map fun r => ((r.1 : Int), r.2)

/-- The exponent of a decimal number from behind its `e`. -/
def exponent? (cs : List Char) : Option Int :=
  let (negative, ds) := takeSign cs
  (Text.natural? ds).map fun n => if negative then -(n : Int) else n

/-- The float nearest to a decimal number without a sign. There must be a digit before or behind
the point. -/
def decimal? (negative : Bool) (cs : List Char) : Option Float :=
  let whole := cs.takeWhile Char.isDigit
  let rest := cs.dropWhile Char.isDigit
  let (fraction, rest) := match rest with
    | '.' :: rest => (rest.takeWhile Char.isDigit, rest.dropWhile Char.isDigit)
    | rest => ([], rest)
  match Text.natural? (whole ++ fraction) with
  | none => none
  | some digits =>
    match rest with
    | [] => some (Number.ofDecimal negative digits (-(fraction.length : Int)))
    | c :: rest =>
      if c = 'e' || c = 'E' then
        (exponent? rest).map fun e => Number.ofDecimal negative digits (e - fraction.length)
      else none

def notANumber : Float := 0.0 / 0.0

def infinity : Float := 1.0 / 0.0

/-- The float without digits whose name the characters begin with, with a sign or none, and what is
left behind it. -/
def namedReal? (cs : List Char) : Option (Float × List Char) :=
  let (negative, cs) := takeSign cs
  match afterWord? "inf" cs with
  | some rest => some (if negative then -infinity else infinity, rest)
  | none => (afterWord? "NaN" cs).map fun rest => (notANumber, rest)

def real : Scan Float := fun cs =>
  match namedReal? cs with
  | some r => .ok r
  | none =>
    let digits := cs.takeWhile isFloatChar
    if digits.contains '_' then failBefore .underscoreInReal (cs.dropWhile (· ≠ '_'))
    else
      let (negative, digits) := takeSign digits
      let rest := cs.dropWhile isFloatChar
      match decimal? negative digits with
      | some x => .ok (x, rest)
      | none => failBefore .noReal rest

/-- Whether what stands behind the sign of a numeral looks like a float and not like a whole
number. -/
def looksReal (cs : List Char) : Bool :=
  let body := (takeSign cs).2
  (body.takeWhile isDigitChar).length < (body.takeWhile isFloatChar).length

def skipWhole : Skip := fun cs =>
  if startsSigned cs then (count cs).map (·.2) else (size cs).map (·.2)

/-- Steps over a numeral: a whole number in range, or else a float. -/
def skipNumeral : Skip := fun cs =>
  match if looksReal cs then none else (skipWhole cs).toOption with
  | some rest => .ok rest
  | none => (real cs).map (·.2)

end Dialogue.Ron
