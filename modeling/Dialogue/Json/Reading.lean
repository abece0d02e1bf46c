import Dialogue.Json.Skipping
import Dialogue.Shape.Readers
import Dialogue.Text.Integer
/-!
# Reading data from JSON text

A shape reads text from front to back and stops at the first thing that is wrong, be it the text or
its data. A record may also be written as the list of its fields, and a choice as its name or as an
object with the name as its only key.
-/

namespace Dialogue.Json

/-- Fails because a value is not what was expected. What is wrong with the value's own text comes
first. -/
def mismatch {α : Type} (expected : String) (cs : List Char) : Except Failure α :=
  match cs with
  | [] => failAt .endInValue []
  | c :: rest =>
    if c = 'n' then do
      let rest ← skipWord ['u', 'l', 'l'] rest
      failBefore (.wrongType .null expected) rest
    else if c = 't' then do
      let rest ← skipWord ['r', 'u', 'e'] rest
      failBefore (.wrongType (.flag true) expected) rest
    else if c = 'f' then do
      let rest ← skipWord ['a', 'l', 's', 'e'] rest
      failBefore (.wrongType (.flag false) expected) rest
    else if c = '-' || c.isDigit then do
      let (n, rest) ← scanNumber (c :: rest)
      failBefore (.wrongType (.number n) expected) rest
    else if c = '"' then do
      let (s, rest) ← quotedText rest
      failBefore (.wrongType (.text s) expected) rest
    else if c = '[' then failBefore (.wrongType .sequence expected) (c :: rest)
    else if c = '{' then failBefore (.wrongType .map expected) (c :: rest)
    else failAt .noValue (c :: rest)

def startsNumber (c : Char) : Bool := c = '-' || c.isDigit

def readText : Scan Datum := fun cs =>
  match skipGaps cs with
  | '"' :: rest => (quotedText rest).map fun r => (.text r.1, r.2)
  | cs => mismatch "a string" cs

def readFlag : Scan Datum := fun cs =>
  match skipGaps cs with
  | 't' :: rest => (skipWord ['r', 'u', 'e'] rest).map fun rest => (.flag true, rest)
  | 'f' :: rest => (skipWord ['a', 'l', 's', 'e'] rest).map fun rest => (.flag false, rest)
  | cs => mismatch "a boolean" cs

/-- A number as a whole number between two bounds. -/
def wholeBetween (least greatest : Int) (expected : String) : Number → Except ReadError Datum
  | .whole n =>
    if least ≤ n && n ≤ greatest then .ok (.whole n) else .error (.outOfRange n expected)
  | n => .error (.wrongType (.number n) expected)

def realOf : Number → Datum
  | .whole n => .real (Number.ofDecimal (n < 0) n.natAbs 0)
  | .real x => .real x

/-- Reads a whole number between two bounds. -/
def readWhole (least greatest : Int) (expected : String) : Scan Datum := fun cs =>
  match skipGaps cs with
  | [] => failAt .endInValue []
  | c :: rest =>
    if startsNumber c then do
      let (n, rest) ← scanNumber (c :: rest)
      match wholeBetween least greatest expected n with
      | .ok x => return (x, rest)
      | .error e => failBefore e rest
    else mismatch expected (c :: rest)

def readReal : Scan Datum := fun cs =>
  match skipGaps cs with
  | [] => failAt .endInValue []
  | c :: rest =>
    if startsNumber c then (scanNumber (c :: rest)).map fun r => (realOf r.1, r.2)
    else mismatch "f64" (c :: rest)

def readList (item : Scan Datum) : Scan Datum := fun cs =>
  match skipGaps cs with
  | '[' :: rest => (elements item rest true rest).map fun r => (.list r.1, r.2)
  | cs => mismatch "a sequence" cs

def readTable (value : Scan Datum) : Scan Datum := fun cs =>
  match skipGaps cs with
  | '{' :: rest => (members value rest true rest).map fun r => (.table r.1, r.2)
  | cs => mismatch "a map" cs

def readOptional (inner : Scan Datum) : Scan Datum := fun cs =>
  match skipGaps cs with
  | 'n' :: rest => (skipWord ['u', 'l', 'l'] rest).map fun rest => (.absent, rest)
  | cs => (inner cs).map fun r => (.present r.1, r.2)

/-- What a record is called when something else was found. -/
def expectation : Title → String
  | .record name => "struct " ++ name
  | .variant choice name => "struct variant " ++ choice ++ "::" ++ name

def expectationOf (title : Title) (fields : Nat) : String :=
  expectation title ++ " with " ++ toString fields ++
    (if fields = 1 then " element" else " elements")

/-- Reads a record's fields by name from behind its opening brace. A member of another name is
stepped over. Each member takes a character of the `clock`. -/
def readMembers (fields : Partial (Scan Datum)) : List Char → Bool → Scan (List Datum)
  | [], _, cs => failAt .endInObject cs
  | _ :: clock, first, cs => do
    match ← nextKey first cs with
    | none =>
      match fields.complete with
      | .error name => failClosing '}' (.missingField name) cs
      | .ok data =>
        let rest ← closeObject cs
        return (data, rest)
    | some (name, cs) =>
      match fields.standing name with
      | .taken => failClosing '}' (.duplicateField name) cs
      | .unknown =>
        let cs ← colon cs
        let cs ← skipValue cs
        readMembers fields clock false cs
      | .free read =>
        let cs ← colon cs
        let (x, cs) ← read cs
        readMembers (fields.fill name x) clock false cs

/-- Reads a record's fields by place from behind its opening bracket, from the field number `index`
on. A field with a default may be left out. -/
def readPlaces (title : Title) (count index : Nat) (first : Bool) :
    List (Slot (Scan Datum)) → Scan (List Datum)
  | [], cs => do
    let rest ← closeList cs
    return ([], rest)
  | slot :: slots, cs => do
    match ← nextElement first cs with
    | some cs =>
      let (x, cs) ← slot.reader cs
      let (xs, cs) ← readPlaces title count (index + 1) false slots cs
      return (x :: xs, cs)
    | none =>
      match slot.field.absence with
      | .filled x =>
        let (xs, cs) ← readPlaces title count (index + 1) first slots cs
        return (x :: xs, cs)
      | _ => failClosing ']' (.wrongLength index (expectationOf title count)) cs

def readRecord (title : Title) (slots : List (Slot (Scan Datum))) : Scan Datum := fun cs =>
  match skipGaps cs with
  | '{' :: rest =>
    (readMembers (Partial.ofSlots slots) rest true rest).map fun r => (.record r.1, r.2)
  | '[' :: rest =>
    (readPlaces title slots.length 0 true slots rest).map fun r => (.record r.1, r.2)
  | cs => mismatch (expectation title) cs

/-- What stands behind a variant's name, as it is called when it is left out. -/
def payloadName? {ρ : Type} : Payload ρ → Option String
  | .nothing => none
  | .single _ => some "newtype variant"
  | .fields _ _ => some "struct variant"

def bareVariant {ρ : Type} (alternatives : List (Alternative ρ)) (name : String) :
    Except ReadError Datum :=
  match alternatives.find? fun a => a.name = name with
  | none => .error (.unknownVariant name (alternatives.map (·.name)))
  | some a =>
    match payloadName? a.payload with
    | none => .ok (.variant name none)
    | some expected => .error (.wrongType .bareVariant expected)

/-- Reads what stands behind a variant's name. In place of nothing stands `null`. -/
def readPayload : Payload (Scan Datum) → Scan (Option Datum)
  | .nothing, cs =>
    match skipGaps cs with
    | 'n' :: rest => (skipWord ['u', 'l', 'l'] rest).map fun rest => (none, rest)
    | cs => mismatch "unit" cs
  | .single read, cs => (read cs).map fun r => (some r.1, r.2)
  | .fields title slots, cs => (readRecord title slots cs).map fun r => (some r.1, r.2)

/-- Steps over the end of a choice that is written as an object. -/
def closeChoice (cs : List Char) : Except Failure (List Char) :=
  match skipGaps cs with
  | [] => failAt .endInObject []
  | c :: rest => if c = '}' then .ok rest else failBefore (.malformed .noValue) (c :: rest)

/-- Reads a choice that is written as an object, from behind the opening brace. Only a text can be
its key. -/
def readTagged (alternatives : List (Alternative (Scan Datum))) : Scan Datum := fun cs =>
  match skipGaps cs with
  | [] => failAt .endInValue []
  | '"' :: rest => do
    let (name, rest) ← quotedText rest
    match alternatives.find? fun a => a.name = name with
    | none => failBefore (.unknownVariant name (alternatives.map (·.name))) rest
    | some a =>
      let rest ← colon rest
      let (payload, rest) ← readPayload a.payload rest
      let rest ← closeChoice rest
      return (.variant name payload, rest)
  | c :: rest => failAt .keyIsNoText (c :: rest)

def readChoice (alternatives : List (Alternative (Scan Datum))) : Scan Datum := fun cs =>
  match skipGaps cs with
  | [] => failAt .endInValue []
  | '"' :: rest => do
    let (name, rest) ← quotedText rest
    match bareVariant alternatives name with
    | .ok x => return (x, rest)
    | .error e => failBefore e rest
  | '{' :: rest => readTagged alternatives rest
  | c :: rest => failAt .noValue (c :: rest)

def textReaders : Readers (Scan Datum) where
  text := readText
  flag := readFlag
  count := readWhole Text.leastCount Text.greatestCount "i64"
  size := readWhole 0 (Text.sizeBound - 1) "usize"
  real := readReal
  list := readList
  table := readTable
  optional := readOptional
  record := readRecord
  choice := readChoice

/-- Reads a datum of the shape from JSON text. Only white space may stand behind it. -/
def readDatum (shape : Shape) (s : String) : Except TextError Datum :=
  readAll (textReaders.of shape) s

end Dialogue.Json
