import Dialogue.Ron.Skipping
import Dialogue.Shape.Readers
import Dialogue.Shape.Stored
/-!
# Reading data from RON text

A shape reads text from front to back and stops at the first thing that is wrong, be it the text or
its data. Values may be nested in each other 128 deep, where a list and an item in it are two
levels.
-/

namespace Dialogue.Ron

/-- Reads a datum with so many levels of values in it. -/
abbrev Reader := Nat → Scan Datum

def deeper {α : Type} (read : Nat → Scan α) : Nat → Scan α
  | 0, cs => failBefore .tooDeep cs
  | room + 1, cs => read room cs

def single {α : Type} (datum : α → Datum) (scan : Scan α) : Reader := fun _ cs =>
  (scan cs).map fun r => (datum r.1, r.2)

def flag : Scan Bool := fun cs =>
  match afterPrefix? "true" cs, afterPrefix? "false" cs with
  | some rest, _ => .ok (true, rest)
  | none, some rest => .ok (false, rest)
  | none, none => failBefore .noFlag cs

/-- Reads the items of a list from behind its opening bracket. -/
def readItems (item : Reader) (room : Nat) : Scan (List Datum) := fun cs => do
  let step (items : List Datum) : Scan (List Datum) := fun cs => do
    let (x, cs) ← deeper item room cs
    return (x :: items, cs)
  let (items, rest) ← foldParts ']' step [] cs
  return (items.reverse, rest)

def readList (item : Reader) : Reader := fun room cs =>
  match cs with
  | '[' :: rest => (deeper (readItems item) room rest).map fun r => (.list r.1, r.2)
  | cs => failBefore .noList cs

/-- Reads an entry of a table: its key, which is a text, and its value. -/
def readEntry (value : Reader) (room : Nat) : Scan (String × Datum) := fun cs => do
  let (key, cs) ← quotedText cs
  let cs ← colon cs
  let (x, cs) ← value room cs
  return ((key, x), cs)

/-- Reads the entries of a table from behind its opening brace. -/
def readEntries (value : Reader) (room : Nat) : Scan (List (String × Datum)) := fun cs => do
  let step (entries : List (String × Datum)) : Scan (List (String × Datum)) := fun cs => do
    let (e, cs) ← deeper (readEntry value) room cs
    return (e :: entries, cs)
  let (entries, rest) ← foldParts '}' step [] cs
  return (entries.reverse, rest)

def readTable (value : Reader) : Reader := fun room cs =>
  match cs with
  | '{' :: rest => (deeper (readEntries value) room rest).map fun r => (.table r.1, r.2)
  | cs => failBefore .noTable cs

def readPresent (inner : Reader) : Reader := deeper fun room cs =>
  (inner room cs).map fun r => (.present r.1, r.2)

/-- Reads a datum that may be absent. With `implicit`, what it holds may stand there without `Some`
or without its parentheses. -/
def readOptional (implicit : Bool) (inner : Reader) : Reader := fun room cs => do
  match afterPrefix? "None" cs, afterPrefix? "Some" cs with
  | some rest, _ => return (.absent, rest)
  | none, none => if implicit then readPresent inner room cs else failBefore .noOptional cs
  | none, some rest =>
    match ← skipGaps rest with
    | '(' :: rest => inParentheses (readPresent inner room) rest
    | rest => if implicit then readPresent inner room rest else failBefore .noOptional rest

/-- Reads a field of a record, given those read so far. A field of another name is stepped over. -/
def readField (implicit : Bool) (title : Title) (fields : Partial Reader) (room : Nat) :
    Scan (Partial Reader) := fun cs => do
  let (key, cs) ← name cs
  match fields.standing key with
  | .taken => failBefore (.duplicateField key title) cs
  | .unknown =>
    let cs ← colon cs
    let cs ← skipValue implicit room cs
    return (fields, cs)
  | .free read =>
    let cs ← colon cs
    let (x, cs) ← read room cs
    return (fields.fill key x, cs)

/-- Reads the fields of a record in any order, from behind the opening parenthesis. -/
def readFields (implicit : Bool) (title : Title) (slots : List (Slot Reader)) (room : Nat) :
    Scan (List Datum) := fun cs => do
  let step (fields : Partial Reader) := deeper (readField implicit title fields) room
  let (fields, rest) ← foldParts ')' step (Partial.ofSlots slots) cs
  match fields.complete with
  | .ok data => return (data, rest)
  | .error name => failBefore (.missingField name title) (')' :: rest)

/-- Steps over the name of a record, if there is one. The record of a variant has none. -/
def skipTitle (title : Title) : Skip := fun cs =>
  if continuesName cs then
    match name? cs, title with
    | none, _ => failBefore (.noRecord title) cs
    | some (_, rest), .variant _ _ => failBefore (.noRecord title) rest
    | some (found, rest), .record expected =>
      if found = expected then .ok rest else failBefore (.otherRecord expected found) rest
  else .ok cs

/-- Why no fields of a record begin where they should. -/
def noFields : Title → ReadError
  | .record name => .noRecord (.record name)
  | .variant _ _ => .noParenthesis

def readRecord (implicit : Bool) (title : Title) (slots : List (Slot Reader)) : Reader :=
  fun room cs => do
    let cs ← skipTitle title cs
    match ← skipGaps cs with
    | '(' :: rest =>
      let (data, rest) ← deeper (readFields implicit title slots) room rest
      return (.record data, rest)
    | rest => failBefore (noFields title) rest

/-- Reads what stands behind a variant's name. -/
def readPayload (implicit : Bool) : Payload Reader → Nat → Scan (Option Datum)
  | .nothing, _, cs => .ok (none, cs)
  | .single read, room, cs => do
    match ← skipGaps cs with
    | '(' :: rest =>
      let (x, rest) ← inParentheses (deeper read room) rest
      return (some x, rest)
    | rest => failBefore .noParenthesis rest
  | .fields title slots, room, cs => do
    let cs ← skipGaps cs
    let (x, rest) ← readRecord implicit title slots room cs
    return (some x, rest)

def readChoice (implicit : Bool) (alternatives : List (Alternative Reader)) : Reader :=
  deeper fun room cs => do
    let cs ← skipGaps cs
    let (key, cs) ← deeper (fun _ => name) room cs
    match alternatives.find? fun a => a.name = key with
    | none => failBefore (.unknownVariant key (alternatives.map (·.name))) cs
    | some a =>
      let (payload, cs) ← readPayload implicit a.payload room cs
      return (.variant key payload, cs)

/-- How RON text is read. With `implicit`, `Some` may be left out. -/
def readers (implicit : Bool) : Readers Reader where
  text := single .text quotedText
  flag := single .flag flag
  count := single .whole count
  size := single (fun n : Nat => .whole n) size
  real := single .real real
  list := readList
  table := readTable
  optional := readOptional implicit
  record := readRecord implicit
  choice := readChoice implicit

/-! ## Whole texts -/

/-- The extensions of the notation that a text may ask for. Only the first changes what is read
here: with it, an optional value may be written without `Some`. -/
def extensions : List String := ["implicit_some", "unwrap_newtypes", "unwrap_variant_newtypes"]

/-- Reads the names of extensions, of which there must be one. Each takes a character of the
`clock`. -/
def extensionNames : List Char → Scan (List String)
  | [], cs => failBefore .endOfText cs
  | _ :: clock, cs => do
    let (key, cs) ← name cs
    if key ∉ extensions then failBefore (.unknownExtension key) cs
    let (more, cs) ← comma cs
    if !continuesName cs then return ([key], cs)
    else if more then
      let (names, cs) ← extensionNames clock cs
      return (key :: names, cs)
    else failBefore .noComma cs

/-- Reads an attribute: the extensions that it asks for. -/
def enabling : Scan (List String) := fun cs => do
  let (opened, cs) ← skipWords ["#", "!", "[", "enable", "("] cs
  if !opened then failBefore .noAttribute cs
  let (names, cs) ← extensionNames cs cs
  let (closed, cs) ← skipWords [")", "]"] cs
  if closed then return (names, cs) else failBefore .noAttributeEnd cs

/-- Reads the attributes at the start of a text. Each takes a character of the `clock`. -/
def attributes : List Char → Scan (List String)
  | [], cs => .ok ([], cs)
  | _ :: clock, cs => do
    if cs.head? = some '#' then
      let (names, cs) ← enabling cs
      let (more, cs) ← attributes clock cs
      return (names ++ more, cs)
    else return ([], cs)

def depthLimit : Nat := 128

/-- Reads a datum of the shape from all of some characters. Only gaps may stand behind it. -/
def scanAll (shape : Shape) (cs : List Char) : Except Failure Datum := do
  let cs ← skipGaps cs
  let (names, cs) ← attributes cs cs
  let reader := (readers (names.contains "implicit_some")).of shape
  let (d, cs) ← reader depthLimit cs
  match ← skipGaps cs with
  | [] => return d
  | rest => failBefore .trailingText rest

def readDatum (shape : Shape) (s : String) : Except TextError Datum :=
  (scanAll shape s.toList).mapError (·.placed s)

/-- The value of a datum that was read. A shape's reader gives data of that shape only. -/
def valueOf (α : Type) [Stored α] (d : Datum) : Except ReadError α :=
  match ofDatum d with
  | some a => .ok a
  | none => .error .endOfText

def read (α : Type) [Stored α] (s : String) : Except TextError α := do
  let d ← readDatum (shapeOf α) s
  (valueOf α d).mapError fun e => Text.Failure.placed s ⟨e, [], 0⟩

end Dialogue.Ron
