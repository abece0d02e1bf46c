import Dialogue.Json.Reading
/-!
# Reading data from parsed JSON

A shape takes a JSON value apart that has been parsed before. It accepts what it would accept as
text, in the order of the members, which for parsed values is the order of their keys.
-/

namespace Dialogue.Json

abbrev Take := Json → Except ReadError Datum

/-- What a value is, for the message that something else was expected. -/
def found : Json → Found
  | .null => .null
  | .flag b => .flag b
  | .number n => .number n
  | .text s => .text s
  | .array _ => .sequence
  | .object _ => .map

/-- Fails because a value is not what was expected. -/
def refuse {α : Type} (expected : String) (j : Json) : Except ReadError α :=
  .error (.wrongType j.found expected)

def takeText : Take
  | .text s => .ok (.text s)
  | j => refuse "a string" j

def takeFlag : Take
  | .flag b => .ok (.flag b)
  | j => refuse "a boolean" j

/-- Takes a whole number between two bounds. -/
def takeWhole (least greatest : Int) (expected : String) : Take
  | .number n => wholeBetween least greatest expected n
  | j => refuse expected j

def takeReal : Take
  | .number n => .ok (realOf n)
  | j => refuse "f64" j

def takeList (item : Take) : Take
  | .array items => (items.mapM item).map .list
  | j => refuse "a sequence" j

def takeTable (value : Take) : Take
  | .object members =>
    (members.mapM fun m => (value m.2).map fun x => (m.1, x)).map .table
  | j => refuse "a map" j

def takeOptional (inner : Take) : Take
  | .null => .ok .absent
  | j => (inner j).map .present

/-- Takes a record's fields by name. Members of other names are left aside. -/
def takeMembers (fields : Partial Take) : List (String × Json) → Except ReadError (List Datum)
  | [] => fields.complete.mapError .missingField
  | (name, j) :: rest =>
    match fields.standing name with
    | .taken => .error (.duplicateField name)
    | .unknown => takeMembers fields rest
    | .free take => do
      let x ← take j
      takeMembers (fields.fill name x) rest

/-- Takes a record's fields by place, from the field number `index` on: the data and the elements
left over. -/
def takePlaces (title : Title) (count index : Nat) :
    List (Slot Take) → List Json → Except ReadError (List Datum × List Json)
  | [], items => .ok ([], items)
  | slot :: slots, j :: items => do
    let x ← slot.reader j
    let (xs, left) ← takePlaces title count (index + 1) slots items
    return (x :: xs, left)
  | slot :: slots, [] =>
    match slot.field.absence with
    | .filled x => (takePlaces title count (index + 1) slots []).map fun r => (x :: r.1, r.2)
    | _ => .error (.wrongLength index (expectationOf title count))

def takeRecord (title : Title) (slots : List (Slot Take)) : Take
  | .object members => (takeMembers (Partial.ofSlots slots) members).map .record
  | .array items => do
    let (data, left) ← takePlaces title slots.length 0 slots items
    if left.isEmpty then return .record data
    else throw (.wrongLength items.length "fewer elements in array")
  | j => refuse (expectation title) j

/-- Takes what stands behind a variant's name. In place of nothing stands `null`, and fields are
taken by name only. -/
def takePayload : Payload Take → Json → Except ReadError (Option Datum)
  | .nothing, .null => .ok none
  | .nothing, j => refuse "unit" j
  | .single take, j => (take j).map some
  | .fields title slots, .object members => (takeRecord title slots (.object members)).map some
  | .fields _ _, j => refuse "struct variant" j

def takeChoice (alternatives : List (Alternative Take)) : Take
  | .text name => bareVariant alternatives name
  | .object [(name, j)] =>
    match alternatives.find? fun a => a.name = name with
    | none => .error (.unknownVariant name (alternatives.map (·.name)))
    | some a => (takePayload a.payload j).map fun payload => .variant name payload
  | .object _ => .error .notSingleKey
  | j => refuse "string or map" j

def valueReaders : Readers Take where
  text := takeText
  flag := takeFlag
  count := takeWhole Text.leastCount Text.greatestCount "i64"
  size := takeWhole 0 (Text.sizeBound - 1) "usize"
  real := takeReal
  list := takeList
  table := takeTable
  optional := takeOptional
  record := takeRecord
  choice := takeChoice

/-- Takes a datum of the shape from a JSON value. -/
def takeDatum (shape : Shape) : Take := valueReaders.of shape

end Dialogue.Json
