import Dialogue.Story.World
import Dialogue.Text.Blank
/-!
# Interpolation

Texts mention counters as `{$$name}`: an opening of three characters, at least one character other
than a closing brace, and a closing brace. The name is what stands between, without blanks at its
ends. When a text is shown, each such token is replaced by the counter's value.
-/

namespace Dialogue.Interpolation

/-- What is shown for a counter that was never written. -/
def missingValue : String := "VALUE_NOT_FOUND"

/-- A piece of a text: a token, by what stands between its opening and its closing brace, or a
character that belongs to none. -/
inductive Piece where
  | plain (c : Char)
  | token (body : List Char)
  deriving DecidableEq, Repr

/-- The body of the token at the start of the characters, and the characters after it. -/
def token? : List Char → Option (List Char × List Char)
  | '{' :: '$' :: '$' :: cs =>
    match cs.takeWhile (· ≠ '}'), cs.dropWhile (· ≠ '}') with
    | [], _ => none
    | _ :: _, [] => none
    | c :: body, _ :: rest => some (c :: body, rest)
  | _ => none

theorem length_lt_of_token? {cs body rest : List Char} (h : token? cs = some (body, rest)) :
    rest.length < cs.length := by
  unfold token? at h
  split at h
  next cs =>
    split at h
    · simp at h
    · simp at h
    next c' body' d rest' _ hdrop =>
      simp only [Option.some.injEq, Prod.mk.injEq] at h
      have hle := (List.dropWhile_sublist (· ≠ '}') (l := cs)).length_le
      rw [hdrop] at hle
      simp only [List.length_cons] at hle ⊢
      rw [← h.2]
      omega
  · simp at h

/-- The pieces of a text, from the left and without overlap. -/
def pieces (cs : List Char) : List Piece :=
  match cs with
  | [] => []
  | c :: rest =>
    match _h : token? (c :: rest) with
    | some (body, rest') => .token body :: pieces rest'
    | none => .plain c :: pieces rest
termination_by cs.length
decreasing_by
  · exact length_lt_of_token? ‹_›
  · simp

def nameOf (body : List Char) : String := String.ofList (Text.trim body)

/-- The counters that a text mentions, in order and with repetitions. -/
def mentions (text : String) : List String :=
  (pieces text.toList).filterMap fun piece =>
    match piece with
    | .plain _ => none
    | .token body => some (nameOf body)

def shown (counters : Counters) (name : String) : List Char :=
  match counters.value? name with
  | some value => (toString value.toInt).toList
  | none => missingValue.toList

def Piece.shown (counters : Counters) : Piece → List Char
  | .plain c => [c]
  | .token body => Interpolation.shown counters (nameOf body)

def substitute (text : String) (counters : Counters) : String :=
  String.ofList ((pieces text.toList).flatMap (Piece.shown counters))

end Dialogue.Interpolation
