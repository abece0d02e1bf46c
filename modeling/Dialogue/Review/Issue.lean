import Dialogue.Shape.Stored
/-!
# Issues

What a review of a tree reports: a list of issues, each an error or a warning.
-/

namespace Dialogue

/-- How serious an issue is. -/
inductive Severity where
  | warning
  | error
  deriving DecidableEq, Inhabited

namespace Severity

def name : Severity → String
  | warning => "Warning"
  | error => "Error"

def word : Severity → String
  | warning => "WARNING"
  | error => "ERROR"

end Severity

/-- What is wrong. -/
inductive IssueKind where
  | missingStart
  | idMismatch
  | danglingChoice
  | danglingDetour
  | unreachable
  | unknownCharacter
  | missingDefaultPortrait
  | unknownOperator
  | unwrittenVariable
  | exitClash
  deriving DecidableEq, Inhabited

namespace IssueKind

/-- All kinds with the names under which they are stored. -/
def names : List (IssueKind × String) :=
  [(missingStart, "MissingStartNode"), (idMismatch, "NodeIdMismatch"),
   (danglingChoice, "DanglingChoice"), (danglingDetour, "DanglingAlternateDestination"),
   (unreachable, "UnreachableNode"), (unknownCharacter, "UnknownCharacter"),
   (missingDefaultPortrait, "MissingDefaultPortrait"), (unknownOperator, "UnknownOperator"),
   (unwrittenVariable, "UnwrittenVariable"), (exitClash, "ExitIdCollision")]

def name (kind : IssueKind) : String := (names.lookup kind).getD ""

def ofName? (name : String) : Option IssueKind :=
  (names.find? fun entry => entry.2 = name).map (·.1)

/-- A tree that cannot be started, or whose nodes are not where they say, is in error. -/
def severity : IssueKind → Severity
  | missingStart | idMismatch => .error
  | _ => .warning

end IssueKind

/-- An issue, with the node and the choice that it is about. -/
structure Issue where
  kind : IssueKind
  severity : Severity
  node : Option String
  choice : Option String
  message : String
  deriving DecidableEq, Inhabited

def Issue.line (i : Issue) : String := i.severity.word ++ ": " ++ i.message

/-- The issues of a tree. -/
structure Report where
  issues : List Issue
  deriving DecidableEq, Inhabited

namespace Report

def errors (r : Report) : List Issue := r.issues.filter fun i => i.severity = .error

def warnings (r : Report) : List Issue := r.issues.filter fun i => i.severity = .warning

def hasErrors (r : Report) : Bool := !r.errors.isEmpty

def isClean (r : Report) : Bool := r.issues.isEmpty

def ofKind (r : Report) (kind : IssueKind) : List Issue := r.issues.filter fun i => i.kind = kind

end Report

instance : Stored Severity where
  shape := namesShape ["Warning", "Error"]
  toDatum severity := .variant severity.name none
  ofDatum
    | .variant "Warning" none => some .warning
    | .variant "Error" none => some .error
    | _ => none

instance : Stored IssueKind where
  shape := namesShape (IssueKind.names.map (·.2))
  toDatum kind := .variant kind.name none
  ofDatum
    | .variant name none => IssueKind.ofName? name
    | _ => none

instance : Stored Issue where
  shape := .record (.record "Issue")
    [(.required "kind", shapeOf IssueKind), (.required "severity", shapeOf Severity),
     (.nullable "node_id", shapeOf (Option String)),
     (.nullable "choice_id", shapeOf (Option String)), (.required "message", shapeOf String)]
  toDatum i := .record
    [toDatum i.kind, toDatum i.severity, toDatum i.node, toDatum i.choice, toDatum i.message]
  ofDatum
    | .record [kind, severity, node, choice, message] =>
      return ⟨← ofDatum kind, ← ofDatum severity, ← ofDatum node, ← ofDatum choice,
        ← ofDatum message⟩
    | _ => none

instance : Stored Report where
  shape := .record (.record "LintReport") [(.required "issues", shapeOf (List Issue))]
  toDatum r := .record [toDatum r.issues]
  ofDatum
    | .record [issues] => return ⟨← ofDatum issues⟩
    | _ => none

end Dialogue
