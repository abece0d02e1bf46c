import Dialogue.Json.ReadError
import Dialogue.Text.Integer
/-!
# Scanning JSON text

What JSON text is made of below the level of values: white space, words, quoted texts and the marks
between values. A scan takes characters and gives what it found and the characters behind that, or
the first thing that is wrong with its place.
-/

namespace Dialogue.Json

/-- What is wrong with a text, and where. -/
abbrev Failure := Text.Failure ReadError

/-- Finds something at the start of characters, and leaves those behind it. -/
abbrev Scan (α : Type) := Text.Scan ReadError α

def failBefore {α : Type} (e : ReadError) (left : List Char) : Except Failure α :=
  Text.failBefore e left

/-- Fails at the first byte of the characters left, or at the end of the text. -/
def failAt {α : Type} (fault : Fault) (left : List Char) : Except Failure α :=
  Text.failBehind 1 (.malformed fault) left

/-- Whether the character may stand between the parts of JSON text. -/
def isGap (c : Char) : Bool := c = ' ' || c = '\n' || c = '\t' || c = '\r'

def skipGaps (cs : List Char) : List Char := cs.dropWhile isGap

def skipWord : List Char → List Char → Except Failure (List Char)
  | [], cs => .ok cs
  | _ :: _, [] => failAt .endInValue []
  | expected :: word, c :: cs =>
    if c = expected then skipWord word cs else failAt .strayWord (c :: cs)

/-! ## Quoted texts -/

/-- Whether a unit of sixteen bits is the first half of a surrogate pair. -/
def isFirstHalf (n : Nat) : Bool := 0xD800 ≤ n && n < 0xDC00

/-- Whether a unit of sixteen bits is the second half of a surrogate pair. -/
def isSecondHalf (n : Nat) : Bool := 0xDC00 ≤ n && n < 0xE000

def joinHalves (first second : Nat) : Char :=
  Char.ofNat (0x10000 + (first - 0xD800) * 0x400 + (second - 0xDC00))

def shortEscape? (c : Char) : Option Char :=
  if c = '"' || c = '\\' || c = '/' then some c
  else if c = 'b' then some '\x08'
  else if c = 'f' then some '\x0c'
  else if c = 'n' then some '\n'
  else if c = 'r' then some '\r'
  else if c = 't' then some '\t'
  else none

/-- Fails because what stands behind `\u` is no unit: behind its four bytes, or at the end of the
text if there are fewer. -/
def failUnit {α : Type} (behind : List Char) : Except Failure α :=
  if Text.byteCount behind < 4 then failAt .endInText []
  else Text.failBehind 4 (.malformed .badEscape) behind

/-- Reads a quoted text from behind its opening quote. `done` are the characters so far, the last
first, and `half` is the first half of a surrogate pair that waits for the second. -/
def unquote (done : List Char) (half : Option Nat) : Scan String
  | [] => failAt .endInText []
  | '\\' :: 'u' :: a :: b :: c :: d :: rest =>
    match Text.hexNumber? [a, b, c, d], half with
    | none, _ => failUnit (a :: b :: c :: d :: rest)
    | some n, none =>
      if isFirstHalf n then unquote done (some n) rest
      else if isSecondHalf n then failBefore (.malformed .halfPair) rest
      else unquote (Char.ofNat n :: done) none rest
    | some n, some first =>
      if isSecondHalf n then unquote (joinHalves first n :: done) none rest
      else failBefore (.malformed .halfPair) rest
  | '\\' :: 'u' :: rest => failUnit rest
  | ['\\'] => failAt .endInText []
  | '\\' :: e :: rest =>
    match half, shortEscape? e with
    | some _, _ => failAt .brokenPair (e :: rest)
    | none, some c => unquote (c :: done) none rest
    | none, none => failAt .badEscape (e :: rest)
  | c :: rest =>
    match half with
    | some _ => failAt .brokenPair (c :: rest)
    | none =>
      if c = '"' then .ok (String.ofList done.reverse, rest)
      else if c.toNat < 0x20 then failAt .controlCharacter (c :: rest)
      else unquote (c :: done) none rest

/-- Reads a quoted text from behind its opening quote. -/
def quotedText : Scan String := unquote [] none

/-- Steps over a quoted text from behind its opening quote. Surrogates need not be paired. -/
def skipText : List Char → Except Failure (List Char)
  | [] => failAt .endInText []
  | '\\' :: 'u' :: a :: b :: c :: d :: rest =>
    match Text.hexNumber? [a, b, c, d] with
    | none => failUnit (a :: b :: c :: d :: rest)
    | some _ => skipText rest
  | '\\' :: 'u' :: rest => failUnit rest
  | ['\\'] => failAt .endInText []
  | '\\' :: e :: rest =>
    match shortEscape? e with
    | some _ => skipText rest
    | none => failAt .badEscape (e :: rest)
  | c :: rest =>
    if c = '"' then .ok rest
    else if c.toNat < 0x20 then failBefore (.malformed .controlCharacter) (c :: rest)
    else skipText rest

/-! ## Lists and objects -/

/-- Goes on to the next element of a list: the characters that begin with it, or nothing if the list
ends here. The first element has no comma in front. -/
def nextElement (first : Bool) (cs : List Char) : Except Failure (Option (List Char)) :=
  match skipGaps cs with
  | [] => failAt .endInList []
  | c :: rest =>
    if c = ']' then .ok none
    else if first then .ok (some (c :: rest))
    else if c = ',' then
      match skipGaps rest with
      | [] => failAt .endInValue []
      | c :: rest => if c = ']' then failAt .trailingComma (c :: rest) else .ok (some (c :: rest))
    else failAt .noListComma (c :: rest)

def key : Scan String
  | [] => failAt .endInValue []
  | c :: rest =>
    if c = '"' then quotedText rest
    else if c = '}' then failAt .trailingComma (c :: rest)
    else failAt .keyIsNoText (c :: rest)

/-- Goes on to the next member of an object: its key and the characters behind that, or nothing if
the object ends here. The first member has no comma in front. -/
def nextKey (first : Bool) (cs : List Char) : Except Failure (Option (String × List Char)) :=
  match skipGaps cs with
  | [] => failAt .endInObject []
  | c :: rest =>
    if c = '}' then .ok none
    else if first then (key (c :: rest)).map some
    else if c = ',' then (key (skipGaps rest)).map some
    else failAt .noObjectComma (c :: rest)

/-- Steps over the colon behind a key. -/
def colon (cs : List Char) : Except Failure (List Char) :=
  match skipGaps cs with
  | [] => failAt .endInObject []
  | c :: rest => if c = ':' then .ok rest else failAt .noColon (c :: rest)

def closeList (cs : List Char) : Except Failure (List Char) :=
  match skipGaps cs with
  | [] => failAt .endInList []
  | ']' :: rest => .ok rest
  | ',' :: rest =>
    match skipGaps rest with
    | ']' :: rest => failAt .trailingComma (']' :: rest)
    | rest => failAt .trailingText rest
  | rest => failAt .trailingText rest

def closeObject (cs : List Char) : Except Failure (List Char) :=
  match skipGaps cs with
  | [] => failAt .endInObject []
  | '}' :: rest => .ok rest
  | ',' :: rest => failAt .trailingComma (',' :: rest)
  | rest => failAt .trailingText rest

/-- Fails behind the closing mark if that comes next, else in front of what does. -/
def failClosing {α : Type} (close : Char) (e : ReadError) (cs : List Char) : Except Failure α :=
  match skipGaps cs with
  | [] => failBefore e []
  | c :: rest => failBefore e (if c = close then rest else c :: rest)

/-- Reads the elements of a list from behind its opening bracket. Each takes a character, so the
characters themselves can be the `clock` that counts the steps. -/
def elements {α : Type} (element : Scan α) : List Char → Bool → Scan (List α)
  | [], _, cs => failAt .endInList cs
  | _ :: clock, first, cs => do
    match ← nextElement first cs with
    | none =>
      let rest ← closeList cs
      return ([], rest)
    | some cs =>
      let (x, cs) ← element cs
      let (xs, cs) ← elements element clock false cs
      return (x :: xs, cs)

/-- Reads the members of an object from behind its opening brace. -/
def members {α : Type} (value : Scan α) : List Char → Bool → Scan (List (String × α))
  | [], _, cs => failAt .endInObject cs
  | _ :: clock, first, cs => do
    match ← nextKey first cs with
    | none =>
      let rest ← closeObject cs
      return ([], rest)
    | some (key, cs) =>
      let cs ← colon cs
      let (x, cs) ← value cs
      let (xs, cs) ← members value clock false cs
      return ((key, x) :: xs, cs)

/-! ## Whole texts -/

/-- Reads all of some characters. Only white space may stand behind what is read. -/
def scanAll {α : Type} (scan : Scan α) (cs : List Char) : Except Failure α := do
  let (x, rest) ← scan cs
  match skipGaps rest with
  | [] => return x
  | rest => failAt .trailingText rest

def readAll {α : Type} (scan : Scan α) (s : String) : Except TextError α :=
  (scanAll scan s.toList).mapError (·.placed s)

end Dialogue.Json
