import Dialogue.Json.Numeral
import Dialogue.SortedMap
/-!
# Parsing JSON text

A whole JSON text as a value. The members of an object are sorted by key, and of equal keys the last
one counts.
-/

namespace Dialogue.Json

/-- Reads a value. Lists and objects are read only if there is a reader for what stands in them, and
`order` puts the members of an object in order. -/
def valueWith (order : List (String × Json) → List (String × Json)) (inner : Option (Scan Json)) :
    Scan Json := fun cs =>
  match skipGaps cs with
  | [] => failAt .endInValue []
  | c :: rest =>
    if c = 'n' then (skipWord ['u', 'l', 'l'] rest).map fun rest => (.null, rest)
    else if c = 't' then (skipWord ['r', 'u', 'e'] rest).map fun rest => (.flag true, rest)
    else if c = 'f' then (skipWord ['a', 'l', 's', 'e'] rest).map fun rest => (.flag false, rest)
    else if c = '-' || c.isDigit then (scanNumber (c :: rest)).map fun r => (.number r.1, r.2)
    else if c = '"' then (quotedText rest).map fun r => (.text r.1, r.2)
    else if c = '[' then
      match inner with
      | none => failAt .tooDeep (c :: rest)
      | some item =>
        (elements item rest true rest).map fun r => (.array r.1, r.2)
    else if c = '{' then
      match inner with
      | none => failAt .tooDeep (c :: rest)
      | some value =>
        (members value rest true rest).map fun r => (.object (order r.1), r.2)
    else failAt .noValue (c :: rest)

/-- Reads a value with lists and objects nested at most `depth` deep. -/
def nested (order : List (String × Json) → List (String × Json)) : Nat → Scan Json
  | 0 => valueWith order none
  | depth + 1 => valueWith order (some (nested order depth))

/-- Members by their keys. Of equal keys the last one counts. -/
def sortMembers (members : List (String × Json)) : List (String × Json) :=
  (SortedMap.ofList members).entries

def value : Nat → Scan Json := nested sortMembers

/-- How deep lists and objects may be nested in a text that is parsed. -/
def depthLimit : Nat := 127

/-- The value of a JSON text. Only white space may stand behind it. -/
def parse (s : String) : Except TextError Json := readAll (value depthLimit) s

end Dialogue.Json
