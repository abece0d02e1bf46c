import Dialogue.Interpolation
import Dialogue.Story.Tree
/-!
# Vocabulary

The flags and the counters that a tree mentions: in its gates, in what its choices change, and in
its texts.
-/

namespace Dialogue

namespace Gate

def flags (g : Gate) : List String := g.requiredFlags ++ g.blockedFlags

def counters (g : Gate) : List String := g.counterConditions.map (·.key)

end Gate

def Choice.gates (c : Choice) : List Gate := c.gate.toList ++ c.otherWays.map (·.gate)

namespace Node

/-- The texts of a node: its own, those of its variations and those of its choices. -/
def texts (n : Node) : List String :=
  n.text :: n.otherTexts.map (·.text) ++ n.choices.map (·.text)

/-- The gates of a node: those of its variations, its choices and their detours. -/
def gates (n : Node) : List Gate :=
  n.otherTexts.filterMap (·.gate) ++ n.choices.flatMap Choice.gates

/-- The flags that the choices of a node set or clear. -/
def changedFlags (n : Node) : List String :=
  n.choices.flatMap fun c =>
    match c.flagChanges with
    | none => []
    | some changes => changes.added ++ changes.removed

def writtenCounters (n : Node) : List String :=
  n.choices.flatMap fun c => c.counterAdjustments.map (·.key)

def shownCounters (n : Node) : List String := n.texts.flatMap Interpolation.mentions

end Node

/-- The flags and counters that a tree mentions, each in order and once. -/
structure Vocabulary where
  flags : List String
  counters : List String
  deriving DecidableEq

namespace Vocabulary

/-- Names in order and each once. -/
def sorted (names : List String) : List String :=
  (SortedMap.ofList (names.map fun name => (name, ()))).keys

def of (t : Tree) : Vocabulary where
  flags := sorted (t.nodes.values.flatMap fun node =>
    node.gates.flatMap Gate.flags ++ node.changedFlags)
  counters := sorted (t.nodes.values.flatMap fun node =>
    node.shownCounters ++ node.gates.flatMap Gate.counters ++ node.writtenCounters)

end Vocabulary

end Dialogue
