import Dialogue.Catalog
import Dialogue.Story.Choice
/-!
# Dialogue trees

A branching conversation: nodes with a line of text and the choices that follow it, and the
characters who speak. A tree may be unfinished: identifiers that lead nowhere are no error.
-/

namespace Dialogue

/-- Someone who speaks, with pictures for their emotions. -/
structure Character where
  name : String
  defaultEmotion : String
  portraits : Catalog String
  deriving DecidableEq, Inhabited

/-- Another text for a node, shown in place of its own if the gate is open. -/
structure Variation where
  text : String
  emotion : Option String
  gate : Option Gate
  deriving DecidableEq, Inhabited

instance : Gated Variation := ⟨Variation.gate⟩

/-- A line of the conversation and the choices that follow it. The speaker's name may differ from
the character's. -/
structure Node where
  id : String
  character : String
  speaker : String
  text : String
  emotion : Option String
  variations : Option (List Variation)
  choices : List Choice
  deriving DecidableEq, Inhabited

namespace Node

def line (id speaker text : String) : Node := ⟨id, "", speaker, text, none, none, []⟩

/-- The variations of a node, in order. -/
def otherTexts (n : Node) : List Variation := n.variations.getD []

def withCharacter (n : Node) (character : String) : Node := { n with character := character }

def withEmotion (n : Node) (emotion : String) : Node := { n with emotion := some emotion }

def withChoice (n : Node) (choice : Choice) : Node := { n with choices := n.choices ++ [choice] }

def withVariation (n : Node) (variation : Variation) : Node :=
  { n with variations := some (n.otherTexts ++ [variation]) }

def choice? (n : Node) (id : String) : Option Choice := n.choices.find? fun c => c.id = id

end Node

/-- A branching conversation. Characters and nodes keep the order in which they were written. -/
structure Tree where
  name : String
  characters : Catalog Character
  start : String
  nodes : Catalog Node
  deriving DecidableEq, Inhabited

namespace Tree

/-- A tree without nodes. -/
def bare (name start : String) : Tree := ⟨name, .empty, start, .empty⟩

def withCharacter (t : Tree) (id : String) (character : Character) : Tree :=
  { t with characters := t.characters.insert id character }

/-- The tree with a node, stored under the node's own id. -/
def withNode (t : Tree) (node : Node) : Tree := { t with nodes := t.nodes.insert node.id node }

def node? (t : Tree) (id : String) : Option Node := t.nodes.get? id

/-- Whether an id leads to a node. The empty id leads nowhere. -/
def hasNode (t : Tree) (id : String) : Bool := id ≠ "" && t.nodes.contains id

def startNode? (t : Tree) : Option Node := t.node? t.start

def isPlayable (t : Tree) : Bool := t.hasNode t.start

def character? (t : Tree) (id : String) : Option Character := t.characters.get? id

/-- All choices in order, each with the id under which its node is stored. -/
def choices (t : Tree) : List (String × Choice) :=
  t.nodes.entries.flatMap fun entry => entry.2.choices.map fun choice => (entry.1, choice)

end Tree

end Dialogue
