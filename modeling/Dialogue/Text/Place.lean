/-!
# Places in a text

Whoever reads a text from front to back knows what is left of it. Where something is wrong follows
from that once the whole text is at hand, and costs nothing as long as nothing is wrong.
-/

namespace Dialogue.Text

/-- A place in a text: its line, counted from one, and how many bytes of that line stand in front of
it. -/
structure Place where
  line : Nat
  column : Nat
  deriving DecidableEq, Repr

def byteCount (cs : List Char) : Nat := cs.foldl (fun n c => n + c.utf8Size) 0

/-- Goes on from a place over so many bytes of the characters. -/
def Place.advance (p : Place) : Nat → List Char → Place
  | _, [] => p
  | bytes, c :: cs =>
    if bytes < c.utf8Size then ⟨p.line, p.column + bytes⟩
    else if c = '\n' then advance ⟨p.line + 1, 0⟩ (bytes - c.utf8Size) cs
    else advance ⟨p.line, p.column + c.utf8Size⟩ (bytes - c.utf8Size) cs

/-- Something wrong with a text: what it is, and where, which is so many bytes into the characters
left. -/
structure Failure (ε : Type) where
  error : ε
  left : List Char
  bytes : Nat

def Failure.place {ε : Type} (s : String) (f : Failure ε) : Place :=
  Place.advance ⟨1, 0⟩ (s.utf8ByteSize - (byteCount f.left - f.bytes)) s.toList

/-- An error with its place. -/
structure Placed (ε : Type) where
  error : ε
  place : Place

/-- A failure in a whole text as an error with its place. -/
def Failure.placed {ε : Type} (s : String) (f : Failure ε) : Placed ε := ⟨f.error, f.place s⟩

/-- Finds something at the start of characters, and leaves those behind it; or fails. -/
abbrev Scan (ε α : Type) := List Char → Except (Failure ε) (α × List Char)

/-- Steps over something at the start of characters, or fails. -/
abbrev Skip (ε : Type) := List Char → Except (Failure ε) (List Char)

variable {ε α : Type}

def failBefore (e : ε) (left : List Char) : Except (Failure ε) α := .error ⟨e, left, 0⟩

/-- Fails behind the first so many bytes of the characters left, or at the end of the text. -/
def failBehind (bytes : Nat) (e : ε) (left : List Char) : Except (Failure ε) α :=
  .error ⟨e, left, bytes⟩

end Dialogue.Text
