import Dialogue.Json.Conversion
import Dialogue.Json.Printer
import Dialogue.Json.Writing
import Dialogue.Shape.Stored
/-!
# Stored types as JSON

Reading and writing the values of stored types.
-/

namespace Dialogue.Json

variable {α : Type} [Stored α]

/-- The value of a datum that was read. A shape's reader gives data of that shape only. -/
def valueOf (α : Type) [Stored α] (d : Datum) : Except ReadError α :=
  match ofDatum d with
  | some a => .ok a
  | none => .error (.malformed .noValue)

/-- Reads a value from JSON text. An error comes with its place. -/
def readPlaced (α : Type) [Stored α] (s : String) : Except TextError α := do
  let d ← readDatum (shapeOf α) s
  (valueOf α d).mapError fun e => Text.Failure.placed s ⟨e, [], 0⟩

def read (α : Type) [Stored α] (s : String) : Except ReadError α :=
  (readPlaced α s).mapError (·.error)

/-- Takes a value from JSON that has been parsed before. -/
def readValue (α : Type) [Stored α] (j : Json) : Except ReadError α :=
  takeDatum (shapeOf α) j >>= valueOf α

def write (a : α) : Json := writeDatum (shapeOf α) (toDatum a)

def writeCompact (a : α) : String := (write a).compact

def writePretty (a : α) : String := (write a).pretty

end Dialogue.Json
