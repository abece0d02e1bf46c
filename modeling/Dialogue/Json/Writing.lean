import Dialogue.Json.Basic
import Dialogue.Shape.Basic
/-!
# Writing data as JSON

A shape writes a datum as a JSON value: a record as an object with its fields in order, without
those that are hidden when absent; a choice without payload as its name, and one with a payload as
an object with that one member.
-/

namespace Dialogue.Json

/-- Whether a field of a record is left out of the written form. -/
def isLeftOut (field : Field) : Datum → Bool
  | .absent => field.hiddenWhenAbsent
  | _ => false

mutual

def writeDatum : Shape → Datum → Json
  | .text, .text s => .text s
  | .flag, .flag b => .flag b
  | .count, .whole n => .whole n
  | .size, .whole n => .whole n
  | .real, .real x => .real x
  | .list item, .list items => .array (items.map (writeDatum item))
  | .table value, .table entries =>
    .object (entries.map fun entry => (entry.1, writeDatum value entry.2))
  | .optional _, .absent => .null
  | .optional inner, .present d => writeDatum inner d
  | .record _ fields, .record data => .object (writeFields fields data)
  | .choice variants, .variant name payload => writeVariant name payload variants
  | _, _ => .null

def writeFields : List (Field × Shape) → List Datum → List (String × Json)
  | (field, shape) :: fields, d :: data =>
    if isLeftOut field d then writeFields fields data
    else (field.name, writeDatum shape d) :: writeFields fields data
  | _, _ => []

def writeVariant (name : String) (payload : Option Datum) : List (String × Option Shape) → Json
  | [] => .null
  | (known, shape) :: rest =>
    if known = name then
      match shape, payload with
      | some shape, some d => .object [(name, writeDatum shape d)]
      | _, _ => .text name
    else writeVariant name payload rest

end

end Dialogue.Json
