import Dialogue.Layout.Basic
import Dialogue.Review.Annotation
import Dialogue.Review.Issue
import Dialogue.Review.Vocabulary
/-!
# Linting

Looks through a whole tree for what is unfinished or inconsistent. First comes what concerns the
tree, then its nodes in order, then the counters that texts show and nothing writes. Each finding
says what is wrong in its own terms; its kind, its place and its wording follow from that.
-/

namespace Dialogue

/-- Something that is wrong with a tree. Nodes are named by the id under which they are stored. -/
inductive Finding where
  | missingStart (start : String)
  | missingDefaultPortrait (character emotion : String)
  | idMismatch (node id : String)
  | unreachable (node : String)
  | unknownCharacter (node character : String)
  | danglingChoice (node choice target : String)
  | danglingDetour (node choice target : String)
  /-- A comparison without meaning, in the gate of a variation or of a choice or detour. -/
  | unknownOperator (node : String) (choice : Option String) (counter sign : String)
  /-- An exit that would be placed under the id of a node. -/
  | exitClash (node choice status : String)
  /-- A counter that a text shows and no choice writes. -/
  | unwrittenVariable (node name : String)
  deriving DecidableEq

namespace Finding

def kind : Finding → IssueKind
  | missingStart _ => .missingStart
  | missingDefaultPortrait _ _ => .missingDefaultPortrait
  | idMismatch _ _ => .idMismatch
  | unreachable _ => .unreachable
  | unknownCharacter _ _ => .unknownCharacter
  | danglingChoice _ _ _ => .danglingChoice
  | danglingDetour _ _ _ => .danglingDetour
  | unknownOperator _ _ _ _ => .unknownOperator
  | exitClash _ _ _ => .exitClash
  | unwrittenVariable _ _ => .unwrittenVariable

def node? : Finding → Option String
  | missingStart _ | missingDefaultPortrait _ _ => none
  | idMismatch node _ | unreachable node | unknownCharacter node _ | danglingChoice node _ _
  | danglingDetour node _ _ | unknownOperator node _ _ _ | exitClash node _ _
  | unwrittenVariable node _ => some node

def choice? : Finding → Option String
  | danglingChoice _ choice _ | danglingDetour _ choice _ | exitClash _ choice _ => some choice
  | unknownOperator _ choice _ _ => choice
  | _ => none

def choiceWords (choice node : String) : String := "Choice '" ++ choice ++ "' in node '" ++ node ++ "'"

def message : Finding → String
  | missingStart start => "Start node '" ++ start ++ "' does not exist"
  | missingDefaultPortrait character emotion =>
    "Character '" ++ character ++ "' has no portrait for its default emotion '" ++ emotion ++ "'"
  | idMismatch node id => "Node stored under '" ++ node ++ "' has id '" ++ id ++ "'"
  | unreachable node => "Node '" ++ node ++ "' cannot be reached from the start node"
  | unknownCharacter node character =>
    "Node '" ++ node ++ "' uses unknown character '" ++ character ++ "'"
  | danglingChoice node choice target =>
    if target = "" then choiceWords choice node ++ " has no target"
    else choiceWords choice node ++ " points to missing node '" ++ target ++ "'"
  | danglingDetour node choice target =>
    choiceWords choice node ++ " has an alternate destination to missing node '" ++ target ++ "'"
  | unknownOperator node _ counter sign =>
    "Condition on '" ++ counter ++ "' in node '" ++ node ++ "' uses unknown operator '" ++ sign ++
      "' and never holds"
  | exitClash node _ status =>
    "Exit '" ++ status ++ "' in node '" ++ node ++ "' shares the graph id '" ++
      Layout.exitId status ++ "' with a real node"
  | unwrittenVariable node name =>
    "Variable '" ++ name ++ "' in node '" ++ node ++ "' is never set by any choice and shows " ++
      Interpolation.missingValue ++ " unless the host seeds it"

def issue (f : Finding) : Issue := ⟨f.kind, f.kind.severity, f.node?, f.choice?, f.message⟩

/-- Whether two findings would tell the same thing twice: a clash of one exit, or one counter that
nothing writes. Only the first is reported. -/
def repeats : Finding → Finding → Bool
  | exitClash _ _ status, exitClash _ _ status' => status = status'
  | unwrittenVariable _ name, unwrittenVariable _ name' => name = name'
  | _, _ => false

/-- The conditions of a gate whose comparison has no meaning. -/
def ofGate (node : String) (choice : Option String) (gate : Gate) : List Finding :=
  (gate.counterConditions.filter fun c => !c.comparison.isKnown).map fun c =>
    unknownOperator node choice c.key c.comparison.sign

def ofDetour (t : Tree) (node choice : String) (detour : Detour) : List Finding :=
  (if t.hasNode detour.target then [] else [danglingDetour node choice detour.target]) ++
    ofGate node (some choice) detour.gate

def ofExit (t : Tree) (node choice status : String) : List Finding :=
  if t.hasNode (Layout.exitId status) then [exitClash node choice status] else []

def ofChoice (t : Tree) (node : String) (c : Choice) : List Finding :=
  (if t.isDangling c then [danglingChoice node c.id c.target] else []) ++
    c.exitStatus.toList.flatMap (ofExit t node c.id) ++
    c.otherWays.flatMap (ofDetour t node c.id) ++
    c.gate.toList.flatMap (ofGate node (some c.id))

/-- What is wrong with a node. Nodes of a tree that cannot be started are not called unreachable. -/
def ofNode (t : Tree) (reached : List String) (node : String) (n : Node) : List Finding :=
  (if n.id = node then [] else [idMismatch node n.id]) ++
    (if t.isPlayable && !reached.contains node then [unreachable node] else []) ++
    (if n.character ≠ "" && !t.characters.contains n.character then
      [unknownCharacter node n.character] else []) ++
    n.otherTexts.flatMap (fun v => v.gate.toList.flatMap (ofGate node none)) ++
    n.choices.flatMap (ofChoice t node)

def ofCharacter (id : String) (c : Character) : List Finding :=
  if c.portraits.contains c.defaultEmotion then []
  else [missingDefaultPortrait id c.defaultEmotion]

def ofShownCounters (t : Tree) : List Finding :=
  let written := t.nodes.values.flatMap Node.writtenCounters
  t.nodes.entries.flatMap fun entry =>
    (entry.2.shownCounters.filter fun name => !written.contains name).map
      (unwrittenVariable entry.1)

end Finding

namespace Tree

/-- All that is wrong with a tree, in order. What concerns several places at once is told at each. -/
def rawFindings (t : Tree) : List Finding :=
  let reached := Layout.reachableIds t
  (if t.isPlayable then [] else [Finding.missingStart t.start]) ++
    t.characters.entries.flatMap (fun entry => Finding.ofCharacter entry.1 entry.2) ++
    t.nodes.entries.flatMap (fun entry => Finding.ofNode t reached entry.1 entry.2) ++
    Finding.ofShownCounters t

/-- All that is wrong with a tree, each thing told once. -/
def findings (t : Tree) : List Finding := t.rawFindings.eraseDupsBy Finding.repeats

def lint (t : Tree) : Report := ⟨t.findings.map Finding.issue⟩

end Tree

end Dialogue
