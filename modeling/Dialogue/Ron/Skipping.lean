import Dialogue.Ron.Numeral
/-!
# Skipping RON values

A value that nobody asked for is stepped over. It has to be sound in itself: brackets match, numbers
are numbers, `Some` holds one value. Only so many values may be nested in each other.
-/

namespace Dialogue.Ron

/-- How a value's parts are stepped over: what an optional value holds is one level down, an item or
field two. Parts that would lie too deep have no way over them. -/
structure Nested where
  content : Option Skip
  part : Option Skip

/-- Goes into something if there is a way over what lies in it. -/
def entering (inner : Option Skip) (skip : Skip → Skip) : Skip := fun cs =>
  match inner with
  | some inner => skip inner cs
  | none => failBefore .tooDeep cs

def valueWords : List String := ["true", "false", "None", "inf", "-inf", "NaN"]

def skipping {α : Type} (scan : Scan α) : Skip := fun cs => (scan cs).map (·.2)

def withoutResult (skip : Skip) : Scan Unit := fun cs => (skip cs).map fun rest => ((), rest)

/-- Steps over the parts up to a closing mark, from behind the opening one. -/
def skipParts (close : Char) (nested : Nested) (part : Skip → Skip) : Skip :=
  entering nested.content fun _ =>
    skipping (foldParts close (fun _ => withoutResult (entering nested.part part)) ())

def skipItem (part : Skip) : Skip := part

/-- Steps over a field: its name and its value. -/
def skipField (part : Skip) : Skip := fun cs => do
  let (_, cs) ← name cs
  let cs ← colon cs
  part cs

/-- Steps over an entry of a table: its key, which may be any value, and its value. -/
def skipEntry (part : Skip) : Skip := fun cs => do
  let cs ← part cs
  let cs ← colon cs
  part cs

/-! ## Parentheses -/

/-- Whether fields stand in parentheses and not items: a field's name and its colon come first. -/
def startsField (cs : List Char) : Except Failure Bool := do
  let cs ← skipGaps cs
  match name? cs with
  | none => return false
  | some (_, rest) =>
    match ← skipGaps rest with
    | [] => failBefore .endOfText []
    | c :: _ => return c = ':'

/-- Steps over fields or items in parentheses, from behind the opening one. If it cannot be told
which they are, that shows at the opening one. -/
def skipParenthesised (nested : Nested) : Skip := fun cs => do
  let fields ← (startsField cs).mapError fun e => ⟨e.error, '(' :: cs, 0⟩
  skipParts ')' nested (if fields then skipField else skipItem) cs

/-! ## Values -/

/-- Steps over what `Some` holds, from behind that word. With `implicit` the parentheses may be
left out. -/
def skipSome (implicit : Bool) (nested : Nested) : Skip := fun cs => do
  let content := entering nested.content skipItem
  match ← skipGaps cs with
  | '(' :: rest => skipping (inParentheses (withoutResult content)) rest
  | rest => if implicit then content rest else failBefore .noOptional rest

/-- Steps over a value that begins with a mark, a digit or a quote. -/
def skipMarked (nested : Nested) : Skip
  | [] => failBefore .endOfText []
  | c :: rest =>
    if c = '(' then skipParenthesised nested rest
    else if c = '[' then skipParts ']' nested skipItem rest
    else if c = '{' then skipParts '}' nested skipEntry rest
    else if c.isDigit || c = '+' || c = '-' || c = '.' then skipNumeral (c :: rest)
    else if c = '\'' then skipLetter rest
    else if c = '"' || c = 'r' then skipping quotedText (c :: rest)
    else failBefore (.strayByte (firstByte c)) (c :: rest)

/-- Steps over what may stand in parentheses behind a name. -/
def skipNamed (nested : Nested) : Skip := fun cs => do
  match ← skipGaps cs with
  | '(' :: rest => skipParenthesised nested rest
  | rest => return rest

def skipWith (implicit : Bool) (nested : Nested) : Skip := fun cs =>
  match valueWords.findSome? fun word => afterWord? word cs with
  | some rest => .ok rest
  | none =>
    match afterWord? "Some" cs, cs, name? cs with
    | some rest, _, _ => skipSome implicit nested rest
    | none, '(' :: ')' :: rest, _ => .ok rest
    | none, _, some (_, rest) => skipNamed nested rest
    | none, cs, none => skipMarked nested cs

/-- Steps over a value with at most `room` levels of values in it. -/
def skipValue (implicit : Bool) : Nat → Skip
  | 0 => skipWith implicit ⟨none, none⟩
  | 1 => skipWith implicit ⟨some (skipValue implicit 0), none⟩
  | room + 2 =>
    skipWith implicit ⟨some (skipValue implicit (room + 1)), some (skipValue implicit room)⟩

end Dialogue.Ron
