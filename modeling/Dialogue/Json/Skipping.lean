import Dialogue.Json.Numeral
/-!
# Skipping JSON values

A value that nobody asked for is stepped over, however deep it is. It has to be JSON text, but its
numbers may be too large and its surrogates unpaired.
-/

namespace Dialogue.Json

/-- A list or object that is still open. -/
inductive Frame where
  | list
  | object
  deriving DecidableEq

namespace Frame

def close : Frame → Char
  | list => ']'
  | object => '}'

/-- The fault if the text ends in a frame. -/
def atEnd : Frame → Fault
  | list => .endInList
  | object => .endInObject

/-- The fault if something other than a comma or the closing mark stands behind a value. -/
def noComma : Frame → Fault
  | list => .noListComma
  | object => .noObjectComma

end Frame

def skipKey (cs : List Char) : Except Failure (List Char) :=
  match skipGaps cs with
  | [] => failAt .endInObject []
  | '"' :: rest => do
    let rest ← skipText rest
    colon rest
  | rest => failAt .keyIsNoText rest

/-- Steps over a value that is neither a list nor an object. -/
def skipPlain (cs : List Char) : Except Failure (List Char) :=
  match cs with
  | [] => failAt .endInValue []
  | c :: rest =>
    if c = 'n' then skipWord ['u', 'l', 'l'] rest
    else if c = 't' then skipWord ['r', 'u', 'e'] rest
    else if c = 'f' then skipWord ['a', 'l', 's', 'e'] rest
    else if c = '-' || c.isDigit then skipNumber (c :: rest)
    else if c = '"' then skipText rest
    else failAt .noValue (c :: rest)

/-- Steps over closing marks behind a value, and over the comma in front of the next one: the frames
that are open then, and the characters that begin with what stands in the innermost. -/
def skipClosing : List Frame → Scan (List Frame)
  | [], cs => .ok ([], cs)
  | frame :: frames, cs =>
    match skipGaps cs with
    | [] => failAt frame.atEnd []
    | c :: rest =>
      if c = frame.close then skipClosing frames rest
      else if c = ',' then .ok (frame :: frames, rest)
      else failAt frame.noComma (c :: rest)

/-- Goes into a frame behind its opening mark, and over its end if it is empty. -/
def openFrame (frame : Frame) (frames : List Frame) : Scan (List Frame) := fun cs =>
  match skipGaps cs with
  | [] => failAt frame.atEnd []
  | c :: rest =>
    if c = frame.close then skipClosing frames rest else .ok (frame :: frames, c :: rest)

/-- Steps over one value in the innermost frame from behind its key, if it has one, and over all that
closes behind it. -/
def skipOne (frames : List Frame) : Scan (List Frame) := fun cs =>
  match skipGaps cs with
  | '[' :: rest => openFrame .list frames rest
  | '{' :: rest => openFrame .object frames rest
  | cs => do
    let rest ← skipPlain cs
    skipClosing frames rest

/-- Steps over the next key, if there is one, its value, and all that closes behind it. -/
def skipItem : List Frame → Scan (List Frame)
  | .object :: frames, cs => do
    let cs ← skipKey cs
    skipOne (.object :: frames) cs
  | frames, cs => skipOne frames cs

/-- Steps over values until no frame is open. Each takes a character of the `clock`; when that has
run down there is nothing left to step over. -/
def skipItems : List Char → List Frame → List Char → Except Failure (List Char)
  | [], frames, cs => (skipItem frames cs).map (·.2)
  | _ :: clock, frames, cs => do
    match ← skipItem frames cs with
    | ([], rest) => return rest
    | (frames, rest) => skipItems clock frames rest

def skipValue (cs : List Char) : Except Failure (List Char) := skipItems cs [] cs

end Dialogue.Json
