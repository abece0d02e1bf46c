import Dialogue.Layout.Config
import Dialogue.Layout.LongestPath
/-!
# Graph layout

The nodes that can be reached are placed in levels from the start on, one column for each level. In
a level the cards are stacked downwards without overlap, and the level is centred on zero. The exits
of the tree stand in a column of their own behind the last level. Edges are drawn between what is
placed.
-/

namespace Dialogue.Layout

/-- How a node's level is found. -/
inductive Mode where
  /-- The depth at which a depth-first walk first reaches the node. -/
  | firstDiscovery
  /-- The longest path from the start, without edges that lead back. -/
  | compact
  deriving DecidableEq, Inhabited

/-- A place on the plane. -/
structure Position (α : Type) where
  x : α
  y : α
  deriving DecidableEq

/-- A node's card. Its position is that of its upper left corner. -/
structure Card (α : Type) where
  id : String
  depth : Nat
  height : α
  position : Position α
  deriving DecidableEq

/-- An exit's card. -/
structure ExitCard (α : Type) where
  id : String
  status : String
  position : Position α
  deriving DecidableEq

/-- What an edge stands for. -/
inductive EdgeKind where
  | choice
  | detour
  | exit
  deriving DecidableEq, Inhabited

/-- An edge. It is locked if its choice is behind a gate that asks for something. -/
structure Edge where
  source : String
  target : String
  label : String
  kind : EdgeKind
  locked : Bool
  deriving DecidableEq, Inhabited

def exitId (status : String) : String := "exit_" ++ status

/-- The nodes of each level, from the first level on. In a level they keep their order. -/
def levels (order : List (String × Nat)) : List (List String) :=
  let count := order.foldl (fun n entry => max n (entry.2 + 1)) 0
  (List.range count).map fun depth =>
    (order.filter fun entry => entry.2 = depth).map (·.1)

section Placing

variable {α : Type} [Coordinate α]

open Coordinate

/-- The places of the cards of a level before they are centred. Card number `i` of `count` would
stand at its share of the vertical spacing, and is pushed down to keep the margin to the one before
it. `above` is the lower end of that one with the margin. -/
def stacked (config : Config α) (count : Nat) (above : Option α) (i : Nat) : List α → List α
  | [] => []
  | height :: heights =>
    let middle := half (ofCount count - ofCount 1)
    let seed := (ofCount i - middle) * config.verticalSpacing
    let y := match above with
      | none => seed
      | some least => if isBelow seed least then least else seed
    y :: stacked config count (some (y + height + config.nodeMargin)) (i + 1) heights

/-- The places of the cards of a level, centred on zero. -/
def packed (config : Config α) (heights : List α) : List α :=
  let ys := stacked config heights.length none 0 heights
  match ys.head?, ys.getLast?, heights.getLast? with
  | some top, some last, some height =>
    let offset := half (top + (last + height))
    ys.map (· - offset)
  | _, _, _ => []

def placedLevel (t : Tree) (config : Config α) (depth : Nat) (ids : List String) : List (Card α) :=
  let heights := ids.map fun id => config.height ((t.node? id).getD default)
  let x := ofCount depth * config.horizontalSpacing
  (ids.zip (heights.zip (packed config heights))).map fun entry =>
    ⟨entry.1, depth, entry.2.1, ⟨x, entry.2.2⟩⟩

/-- The cards of all nodes, level by level. -/
def placedNodes (t : Tree) (config : Config α) (order : List (String × Nat)) : List (Card α) :=
  (levels order).zipIdx.flatMap fun level => placedLevel t config level.2 level.1

/-- The exit statuses of a tree, in order and each once. -/
def exitStatuses (t : Tree) : List String :=
  (t.choices.filterMap fun entry => entry.2.exitStatus).eraseDups

/-- The largest of some numbers, or zero. -/
def rightmost (xs : List α) : α :=
  match xs with
  | [] => ofCount 0
  | x :: xs => xs.foldl larger x

def placedExits (t : Tree) (config : Config α) (cards : List (Card α)) : List (ExitCard α) :=
  let x := rightmost (cards.map (·.position.x)) + config.exitOffset
  (exitStatuses t).zipIdx.map fun entry =>
    ⟨exitId entry.1, entry.1, ⟨x, ofCount entry.2 * config.exitSpacing⟩⟩

end Placing

/-- Whether a choice is behind a gate that asks for something. -/
def isLocked (choice : Choice) : Bool :=
  match choice.gate with
  | none => false
  | some gate => !gate.isEmpty

/-- The edges of a choice: to its exit, or to its detours in place of its own target. Targets that
are not placed are left out. -/
def choiceEdges (isPlaced : String → Bool) (source : String) (choice : Choice) : List Edge :=
  let edge (kind : EdgeKind) (target : String) : Edge :=
    ⟨source, target, choice.text, kind, isLocked choice⟩
  match choice.exitStatus with
  | some status => [edge .exit (exitId status)]
  | none =>
    if choice.otherWays.isEmpty then
      if isPlaced choice.target then [edge .choice choice.target] else []
    else ((choice.otherWays.map (·.target)).filter isPlaced).map (edge .detour)

/-- The edges out of the placed nodes, in the order in which these are placed. -/
def drawnEdges (t : Tree) (ids : List String) : List Edge :=
  ids.flatMap fun id =>
    match t.node? id with
    | none => []
    | some node => node.choices.flatMap (choiceEdges ids.contains node.id)

end Layout

/-- A layout of a tree. -/
structure Layout (α : Type) where
  mode : Layout.Mode
  nodes : List (Layout.Card α)
  exits : List (Layout.ExitCard α)
  edges : List Layout.Edge

namespace Layout

variable {α : Type}

/-- The nodes in the order of a depth-first walk, each with its level. -/
def order (t : Tree) : Mode → List (String × Nat)
  | .firstDiscovery => firstDiscovery t
  | .compact => longestPath t

def of [Coordinate α] (t : Tree) (config : Config α) (mode : Mode) : Layout α :=
  let nodes := placedNodes t config (order t mode)
  ⟨mode, nodes, placedExits t config nodes, drawnEdges t (nodes.map (·.id))⟩

def node? (l : Layout α) (id : String) : Option (Card α) := l.nodes.find? fun card => card.id = id

def exit? (l : Layout α) (status : String) : Option (ExitCard α) :=
  l.exits.find? fun card => card.status = status

def contains (l : Layout α) (id : String) : Bool := (l.node? id).isSome

/-- The position of a node, or else of the exit that is placed under the id. -/
def position? (l : Layout α) (id : String) : Option (Position α) :=
  match l.node? id with
  | some card => some card.position
  | none => (l.exits.find? fun card => card.id = id).map (·.position)

/-- The positions under their ids. Where an exit has the id of a node, the exit's position stands in
the node's place. -/
def positions (l : Layout α) : Catalog (Position α) :=
  .ofList (l.nodes.map (fun card => (card.id, card.position)) ++
    l.exits.map fun card => (card.id, card.position))

end Layout

end Dialogue
