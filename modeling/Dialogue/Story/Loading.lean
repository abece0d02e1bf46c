import Dialogue.Json.Stored
import Dialogue.Ron.Reading
import Dialogue.Story.Form
/-!
# Loading trees

A tree is read from JSON or from RON text. It fails only if the text is no dialogue tree at all;
what is unfinished or leads nowhere is left to the linter.
-/

namespace Dialogue

/-- Why a file cannot be read. -/
inductive FileError where
  | notFound
  | notADirectory
  | isADirectory
  | nameTooLong
  deriving DecidableEq

def FileError.message : FileError → String
  | notFound => "No such file or directory (os error 2)"
  | notADirectory => "Not a directory (os error 20)"
  | isADirectory => "Is a directory (os error 21)"
  | nameTooLong => "File name too long (os error 36)"

/-- Why a tree cannot be loaded. -/
inductive LoadError where
  /-- The tree's JSON cannot be read. If it was read from text, the error has a place there. -/
  | json (e : Json.ReadError) (place : Option Text.Place)
  /-- The tree's RON cannot be read. -/
  | ron (e : Ron.TextError)
  | file (e : FileError)

namespace Tree

def ofJsonText (s : String) : Except LoadError Tree :=
  (Json.readPlaced Tree s).mapError fun e => .json e.error (some e.place)

/-- Reads a tree from JSON that has been parsed before. -/
def ofJson (j : Json) : Except LoadError Tree :=
  (Json.readValue Tree j).mapError fun e => .json e none

def ofRonText (s : String) : Except LoadError Tree :=
  (Ron.read Tree s).mapError .ron

def toJsonText (t : Tree) : String := Json.writePretty t

end Tree

def LoadError.message : LoadError → String
  | json e none => "malformed dialogue tree (JSON): " ++ e.message
  | json e (some place) =>
    "malformed dialogue tree (JSON): " ++ Json.placedMessage ⟨e, place⟩
  | ron e => "malformed dialogue tree (RON): " ++ Ron.placedMessage e
  | file e => "IO error: " ++ e.message

/-- Keeps the tree that was saved last, and counts how often one was saved. -/
structure Shelf where
  saved : Option Tree
  saves : Nat
  deriving DecidableEq, Inhabited

namespace Shelf

def empty : Shelf := ⟨none, 0⟩

def holding (t : Tree) : Shelf := ⟨some t, 0⟩

def save (s : Shelf) (t : Tree) : Shelf := ⟨some t, s.saves + 1⟩

end Shelf

end Dialogue
