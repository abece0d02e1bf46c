import Dialogue.Number.Written
import Dialogue.Shape.Stored
import Dialogue.Text.Quoted
/-!
# Writing data as RON

A shape writes a datum over several lines, four spaces further in on each level. Records are written
without their names, and every item and field ends with a comma.
-/

namespace Dialogue.Ron

/-- The start of a line at a level of nesting. -/
def lineStart (level : Nat) : String := "\n" ++ String.ofList (List.replicate (4 * level) ' ')

/-- What stands between brackets, one part to a line. -/
def bracketed (opening closing : String) (level : Nat) (parts : List String) : String :=
  if parts.isEmpty then opening ++ closing
  else
    opening ++ String.join (parts.map fun part => lineStart (level + 1) ++ part ++ ",") ++
      lineStart level ++ closing

mutual

def text (level : Nat) : Shape → Datum → String
  | .text, .text s => Text.QuoteStyle.file.quote s
  | .flag, .flag b => if b then "true" else "false"
  | .count, .whole n => toString n
  | .size, .whole n => toString n
  | .real, .real x => Number.Style.file.write x
  | .list item, .list items => bracketed "[" "]" level (items.map (text (level + 1) item))
  | .table value, .table entries =>
    bracketed "\x7b" "\x7d" level (entries.map fun entry =>
      Text.QuoteStyle.file.quote entry.1 ++ ": " ++ text (level + 1) value entry.2)
  | .optional _, .absent => "None"
  | .optional inner, .present d => "Some(" ++ text level inner d ++ ")"
  | .record _ fields, .record data => bracketed "(" ")" level (fieldTexts (level + 1) fields data)
  | .choice variants, .variant name payload => name ++ payloadText level name payload variants
  | _, _ => ""

def fieldTexts (level : Nat) : List (Field × Shape) → List Datum → List String
  | (field, shape) :: fields, d :: data =>
    (field.name ++ ": " ++ text level shape d) :: fieldTexts level fields data
  | _, _ => []

/-- The payload of a choice behind its name. -/
def payloadText (level : Nat) (name : String) (payload : Option Datum) :
    List (String × Option Shape) → String
  | [] => ""
  | (known, shape) :: rest =>
    if known = name then
      match shape, payload with
      | some shape, some d => "(" ++ text level shape d ++ ")"
      | _, _ => ""
    else payloadText level name payload rest

end

def write {α : Type} [Stored α] (a : α) : String := text 0 (shapeOf α) (toDatum a)

end Dialogue.Ron
