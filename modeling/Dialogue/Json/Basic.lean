import Dialogue.SortedMap
/-!
# JSON values

A JSON value keeps its members in order and tells whole numbers from others. Writers build these
values, and readers of data that has already been parsed take them apart.
-/

namespace Dialogue

/-- A number in JSON: whole numbers that fit 64 bits stay whole. -/
inductive Json.Number where
  | whole (n : Int)
  | real (x : Float)

/-- A JSON value. -/
inductive Json where
  | null
  | flag (b : Bool)
  | number (n : Json.Number)
  | text (s : String)
  | array (items : List Json)
  | object (members : List (String × Json))
  deriving Inhabited

namespace Json

def whole (n : Int) : Json := .number (.whole n)

def natural (n : Nat) : Json := .number (.whole n)

/-- A number that need not be whole. -/
def real (x : Float) : Json := .number (.real x)

/-- A text, or `null`. -/
def optionalText : Option String → Json
  | none => .null
  | some s => .text s

def texts (items : List String) : Json := .array (items.map .text)

end Json

end Dialogue
