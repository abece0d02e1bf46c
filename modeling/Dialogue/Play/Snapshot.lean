import Dialogue.Markup.Span
import Dialogue.Story.World
/-!
# Snapshots

All that changes while a conversation is played: where it stands, the state of the story, what has
been said, and whether it has ended.
-/

namespace Dialogue

/-- How a conversation ended. -/
inductive Ending where
  /-- A choice with this exit was taken. -/
  | exit (status : String)
  /-- The conversation was led to a node that does not exist. -/
  | missingTarget (node : String)
  deriving DecidableEq, Inhabited

namespace Ending

/-- The status that is reported when the conversation was led nowhere. -/
def missingTargetStatus : String := "missing_target"

def status : Ending → String
  | exit status => status
  | missingTarget _ => missingTargetStatus

def describe : Ending → String
  | exit status => "exit: " ++ status
  | missingTarget node => "missing target node '" ++ node ++ "'"

end Ending

/-- Whether a conversation goes on. -/
inductive Status where
  | active
  | ended (ending : Ending)
  deriving DecidableEq, Inhabited

/-- A line of the conversation as it was shown. -/
structure Message where
  /-- The id that the node itself has. -/
  node : String
  speaker : String
  /-- The text with its variables. -/
  rawText : String
  /-- The text that was shown. -/
  text : String
  spans : List Markup.Span
  emotion : Option String
  portrait : Option String
  /-- The text of the choice that led here, as it is written in the tree. -/
  via : Option String
  deriving DecidableEq, Inhabited

/-- A conversation at one moment. -/
structure Snapshot where
  /-- The id under which the current node is stored. -/
  node : String
  world : World
  transcript : List Message
  status : Status
  deriving DecidableEq, Inhabited

namespace Snapshot

/-- How the conversation ended, if it did. -/
def ending? (s : Snapshot) : Option Ending :=
  match s.status with
  | .active => none
  | .ended ending => some ending

def isEnded (s : Snapshot) : Bool := s.ending?.isSome

def last? (s : Snapshot) : Option Message := s.transcript.getLast?

def portrait? (s : Snapshot) : Option String := s.last?.bind (·.portrait)

end Snapshot

end Dialogue
