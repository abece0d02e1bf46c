import Dialogue.Ron.ReadError
import Dialogue.Text.Integer
import Dialogue.Text.Search
/-!
# Scanning RON text

RON is the notation of layout files, and trees may be written in it too. Here is what its text is
made of below the level of values: gaps, commas, names, quoted texts. A scan takes characters and
gives what it found and the characters behind that, or the first thing that is wrong with its place.
-/

namespace Dialogue.Ron

/-- What is wrong with a text, and where. -/
abbrev Failure := Text.Failure ReadError

/-- Finds something at the start of characters, and leaves those behind it. -/
abbrev Scan (α : Type) := Text.Scan ReadError α

abbrev Skip := Text.Skip ReadError

def failBefore {α : Type} (e : ReadError) (left : List Char) : Except Failure α :=
  Text.failBefore e left

/-- Fails behind the first byte of the characters left. -/
def failBehind {α : Type} (e : ReadError) (left : List Char) : Except Failure α :=
  Text.failBehind 1 e left

/-! ## Gaps -/

def isBlank (c : Char) : Bool := c = ' ' || c = '\n' || c = '\t' || c = '\r'

/-- What kind of gap a character stands in. -/
inductive Gap where
  | blank
  /-- A comment up to the end of the line. -/
  | line
  /-- A comment between marks, with so many others around it. -/
  | block (outer : Nat)

/-- The first byte of a character, as the character of its number. -/
def firstByte (c : Char) : Char :=
  let n := c.toNat
  Char.ofNat (if n < 0x80 then n else if n < 0x800 then 0xC0 + n / 0x40
    else if n < 0x10000 then 0xE0 + n / 0x1000 else 0xF0 + n / 0x40000)

/-- Fails because no comment begins with a slash and the characters behind it. -/
def failSlash {α : Type} (cs : List Char) : Except Failure α :=
  match cs with
  | [] => failBefore .endOfText []
  | c :: rest => failBehind (.strayByte (firstByte c)) (c :: rest)

/-- Steps over the rest of a gap and over those behind it. -/
def skipGap : Gap → Skip
  | .blank, '/' :: '/' :: rest => skipGap .line rest
  | .blank, '/' :: '*' :: rest => skipGap (.block 0) rest
  | .blank, c :: rest =>
    if isBlank c then skipGap .blank rest else if c = '/' then failSlash rest else .ok (c :: rest)
  | .line, c :: rest => skipGap (if c = '\n' then .blank else .line) rest
  | .block 0, '*' :: '/' :: rest => skipGap .blank rest
  | .block (outer + 1), '*' :: '/' :: rest => skipGap (.block outer) rest
  | .block outer, '/' :: '*' :: rest => skipGap (.block (outer + 1)) rest
  | .block outer, _ :: rest => skipGap (.block outer) rest
  | .block _, [] => failBefore .openComment []
  | _, [] => .ok []

def skipGaps : Skip := skipGap .blank

/-- Steps over gaps, and over a comma if there is one: whether there is. -/
def comma : Scan Bool := fun cs => do
  match ← skipGaps cs with
  | ',' :: rest =>
    let rest ← skipGaps rest
    return (true, rest)
  | rest => return (false, rest)

/-- Steps over the colon behind a key, and over the gaps around it. -/
def colon : Skip := fun cs => do
  match ← skipGaps cs with
  | ':' :: rest => skipGaps rest
  | rest => failBefore .noColon rest

/-! ## Names -/

def continuesName (cs : List Char) : Bool := cs.head?.any isNameChar

/-- Whether the characters go on a name that is written with `r#`. -/
def continuesRawName (cs : List Char) : Bool := cs.head?.any isRawNameChar

def nameError (cs : List Char) : ReadError :=
  match cs with
  | [] | ['r'] => .endOfText
  | c :: _ =>
    if isRawNameChar c && c ≠ 'r' then .rawName (String.ofList (cs.takeWhile isRawNameChar))
    else .noName

/-- The name that the characters begin with, and those behind it. What begins with `r` may also be a
raw text. -/
def name? (cs : List Char) : Option (String × List Char) :=
  match cs with
  | [] | ['r'] | 'r' :: '"' :: _ => none
  | 'r' :: '#' :: rest =>
    match rest.takeWhile isRawNameChar with
    | [] => none
    | cs => some (String.ofList cs, rest.dropWhile isRawNameChar)
  | c :: rest =>
    let behind := rest.dropWhile isNameChar
    if isNameStart c && (c = 'r' || !continuesRawName behind) then
      some (String.ofList (c :: rest.takeWhile isNameChar), behind)
    else none

def name : Scan String := fun cs =>
  match name? cs with
  | some r => .ok r
  | none => failBefore (nameError cs) cs

/-- What is left behind the characters of a word, even if a longer name begins with them. -/
def afterPrefix? (word : String) (cs : List Char) : Option (List Char) :=
  Text.after? word.toList cs

/-- What is left behind a word that is not the start of a longer name. -/
def afterWord? (word : String) (cs : List Char) : Option (List Char) := do
  let rest ← afterPrefix? word cs
  if continuesName rest then none else some rest

/-- Steps over each of the words that is there, and over the gaps behind it: whether all are. -/
def skipWords : List String → Scan Bool
  | [], cs => .ok (true, cs)
  | word :: words, cs =>
    match afterPrefix? word cs with
    | some rest => do
      let rest ← skipGaps rest
      skipWords words rest
    | none => do
      let (_, rest) ← skipWords words cs
      return (false, rest)

/-! ## Quoted texts -/

def hexDigit : Scan Nat
  | [] => failBefore .endOfText []
  | c :: rest =>
    match Text.hexDigit? c with
    | some d => .ok (d, rest)
    | none => failBehind (.badEscape .noDigit) (c :: rest)

/-- Reads the digits in front of a closing brace, up to a number of them. -/
def hexDigits : Nat → Scan (List Nat)
  | 0, cs => .ok ([], cs)
  | _ + 1, [] => failBefore .endOfText []
  | limit + 1, c :: rest =>
    if c = '}' then .ok ([], c :: rest)
    else do
      let (d, rest) ← hexDigit (c :: rest)
      let (ds, rest) ← hexDigits limit rest
      return (d :: ds, rest)

def skipMark (mark : Char) (fault : EscapeFault) : Skip
  | [] => failBefore .endOfText []
  | c :: rest => if c = mark then .ok rest else failBehind (.badEscape fault) (c :: rest)

/-- The character of `\u{…}`, from behind the `u`. It is no half of a surrogate pair and not beyond
the last character. -/
def bracedEscape : Scan Char := fun cs => do
  let cs ← skipMark '{' .noBrace cs
  let (ds, cs) ← hexDigits 6 cs
  if ds.isEmpty then failBefore (.badEscape .noDigits) cs
  let rest ← skipMark '}' .noClosingBrace cs
  let n := ds.foldl (fun n d => 16 * n + d) 0
  if n.isValidChar then return (Char.ofNat n, rest)
  else failBefore (.badEscape .noCharacter) rest

/-- The character of `\x` and two digits, from behind the `x`. -/
def byteEscape : Scan Char := fun cs => do
  let (high, cs) ← hexDigit cs
  let (low, cs) ← hexDigit cs
  return (Char.ofNat (16 * high + low), cs)

def shortEscape? (c : Char) : Option Char :=
  if c = '\'' || c = '"' || c = '\\' then some c
  else if c = 'n' then some '\n'
  else if c = 'r' then some '\r'
  else if c = 't' then some '\t'
  else if c = '0' then some '\x00'
  else none

/-- What a backslash and the characters behind it stand for. -/
def escape : Scan Char
  | [] => failBefore .endOfText []
  | c :: rest =>
    if c = 'u' then bracedEscape rest
    else if c = 'x' then byteEscape rest
    else
      match shortEscape? c with
      | some e => .ok (e, rest)
      | none => failBehind (.badEscape .unknown) (c :: rest)

/-- Reads a quoted text from behind its opening quote. `done` are the characters so far, the last
first. If there is no closing quote, that shows at the `start`, which is behind the opening quote or
the last escape. Each step takes a character of the `clock`. -/
def unquote (unclosed : ReadError) (start done : List Char) : List Char → Scan String
  | _, [] => failBefore unclosed start
  | _, '"' :: rest => .ok (String.ofList done.reverse, rest)
  | _ :: clock, '\\' :: rest => do
    let (c, rest) ← escape rest
    unquote .endOfText rest (c :: done) clock rest
  | _ :: clock, c :: rest => unquote unclosed start (c :: done) clock rest
  | [], _ :: _ => failBefore unclosed start

/-- Reads a text between double quotes, or a raw text, which ends with as many `#` as stand before
it. -/
def quotedText : Scan String
  | '"' :: rest => unquote .noTextEnd rest [] rest rest
  | 'r' :: rest =>
    let hashes := rest.takeWhile (· = '#')
    match rest.dropWhile (· = '#') with
    | '"' :: body =>
      match Text.splitAt? ('"' :: hashes) body with
      | some (inside, rest) => .ok (String.ofList inside, rest)
      | none => failBefore .noTextEnd body
    | rest => failBefore .noText rest
  | cs => failBefore .noText cs

/-- Steps over a character between single quotes, from behind the first one. -/
def skipLetter : Skip
  | [] => failBefore .endOfText []
  | '\\' :: rest => do
    match ← escape rest with
    | (_, '\'' :: rest) => return rest
    | (_, rest) => failBefore .noLetter rest
  | '\'' :: rest => failBefore .noLetter ('\'' :: rest)
  | _ :: '\'' :: rest => .ok rest
  | cs => failBefore .noLetter cs

/-! ## Lists of parts -/

/-- Goes through the parts up to a closing mark, from behind the opening one. `part` takes what the
parts so far came to and steps over one more. After every part a comma may stand; between two of
them it must. Each part takes a character, so the characters themselves can be the `clock` that
counts the steps. -/
def foldPartsWithin {β : Type} (close : Char) (part : β → Scan β) : List Char → Bool → β → Scan β
  | [], _, _, cs => failBefore .endOfText cs
  | _ :: clock, separated, b, cs => do
    match ← skipGaps cs with
    | [] => failBefore .endOfText []
    | c :: rest =>
      if c = close then return (b, rest)
      else if separated then
        let (b, cs) ← part b (c :: rest)
        let (separated, cs) ← comma cs
        foldPartsWithin close part clock separated b cs
      else failBefore .noComma (c :: rest)

/-- Goes through the parts up to a closing mark, from behind the opening one. -/
def foldParts {β : Type} (close : Char) (part : β → Scan β) (b : β) : Scan β := fun cs =>
  foldPartsWithin close part cs true b cs

/-- Reads something that stands in parentheses alone, from behind the opening one. A comma may
follow it. -/
def inParentheses {α : Type} (scan : Scan α) : Scan α := fun cs => do
  let cs ← skipGaps cs
  let (a, cs) ← scan cs
  let (_, cs) ← comma cs
  match cs with
  | ')' :: rest => return (a, rest)
  | rest => failBefore .noClosingParenthesis rest

end Dialogue.Ron
