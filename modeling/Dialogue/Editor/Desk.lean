import Dialogue.Json.Stored
import Dialogue.Layout.Form
import Dialogue.Markup.Form
import Dialogue.Markup.Wrap
import Dialogue.Review.Lint
import Dialogue.Story.Loading
/-!
# The editor's desk

What an editor asks about trees and texts. Questions and answers are JSON texts. A state, a list of
flags or a gate that is left blank stands for nothing.
-/

namespace Dialogue.Editor

/-- Why a question cannot be answered. -/
inductive Problem where
  | tree (e : LoadError)
  | counters (e : Json.TextError)
  | flags (e : Json.TextError)
  | gate (e : Json.TextError)
  | unknownTag (raw : String)

def Problem.message : Problem → String
  | tree e => e.message
  | counters e => "Invalid state JSON: " ++ Json.placedMessage e
  | flags e => "Invalid flags JSON: " ++ Json.placedMessage e
  | gate e => "Invalid prerequisites JSON: " ++ Json.placedMessage e
  | unknownTag raw => "Unknown tag: " ++ raw

def readTree (text : String) : Except Problem Tree := (Tree.ofJsonText text).mapError .tree

def readCounters (text : String) : Except Problem Counters :=
  if Text.isAllBlank text then .ok .none else (Json.readPlaced Counters text).mapError .counters

def readFlags (text : String) : Except Problem Flags :=
  if Text.isAllBlank text then .ok .none else (Json.readPlaced Flags text).mapError .flags

/-- Reads a gate, or none. -/
def readGate (text : String) : Except Problem (Option Gate) :=
  if Text.isAllBlank text then .ok none else (Json.readPlaced (Option Gate) text).mapError .gate

/-- The tag of a button: a letter, or a color with a name that is not empty. -/
def readTag (raw : String) : Except Problem Markup.Tag :=
  if raw = "b" then .ok .bold
  else if raw = "i" then .ok .italic
  else if raw = "s" then .ok .strikethrough
  else
    match Text.after? ['c', 'o', 'l', 'o', 'r', '='] raw.toList with
    | some (c :: name) => .ok (.color (String.ofList (c :: name)))
    | _ => .error (.unknownTag raw)

def layout (tree : String) (compact : Bool) : Except Problem String := do
  let t ← readTree tree
  let mode := if compact then .compact else .firstDiscovery
  return Json.writeCompact (Layout.of t Layout.standardSettings mode)

def spans (text : String) : String := Json.writeCompact (Markup.spans text)

/-- The text with a selection wrapped in a tag, and the cursor. -/
def wrap (text : String) (start stop : Nat) (tag : String) : Except Problem String := do
  let tag ← readTag tag
  let (wrapped, cursor) := Markup.wrap text start stop tag
  return (Json.array [.text wrapped, .natural cursor]).compact

def substitute (text state : String) : Except Problem String := do
  return Interpolation.substitute text (← readCounters state)

def mentions (text : String) : String := Json.writeCompact (Interpolation.mentions text)

def isOpen (gate flags state : String) : Except Problem Bool := do
  let gate ← readGate gate
  let flags ← readFlags flags
  let counters ← readCounters state
  return Dialogue.isOpen gate ⟨flags, counters⟩

def lint (tree : String) : Except Problem String := do
  return Json.writeCompact (← readTree tree).lint

def annotation (t : Tree) (node : String) (c : Choice) : Json :=
  .object
    [("nodeId", .text node), ("choiceId", .text c.id), ("dangling", .flag (t.isDangling c)),
     ("tooltip", .optionalText (t.tooltip c))]

/-- What the graph shows at each choice of a tree. -/
def annotations (tree : String) : Except Problem String := do
  let t ← readTree tree
  return (Json.array (t.choices.map fun entry => annotation t entry.1 entry.2)).compact

end Dialogue.Editor
