import Dialogue.Layout.Basic
/-!
# The walks by number

The graph of a tree with its nodes numbered as they stand in the tree, and both walks over it. What
a walk knows of a node stands in a list, at the node's number.
-/

namespace Dialogue

/-- The number of the node that an id leads to. The empty id leads nowhere. -/
def Tree.number? (t : Tree) (id : String) : Option Nat :=
  if id = "" then none else t.nodes.keys.findIdx? (· = id)

def Tree.idAt (t : Tree) (i : Nat) : String := t.nodes.keys.getD i ""

namespace Layout

/-- A graph whose nodes are numbers. -/
structure Numbered where
  start? : Option Nat
  children : List (List Nat)

namespace Numbered

def of (t : Tree) : Numbered where
  start? := t.number? t.start
  children := t.nodes.values.map fun node =>
    (node.choices.flatMap Choice.targets).filterMap t.number?

def childrenAt (g : Numbered) (i : Nat) : List Nat := g.children.getD i []

def size (g : Numbered) : Nat := g.children.length

def edgeCount (g : Numbered) : Nat := g.children.flatten.length

structure Discovery where
  /-- The nodes to go on with, each with the depth at which it was met, the next one first. -/
  stack : List (Nat × Nat)
  visited : List Bool
  depths : List Nat
  /-- The nodes visited so far, the first one first. -/
  order : List Nat

namespace Discovery

def start (g : Numbered) : Discovery where
  stack := g.start?.toList.map fun i => (i, 0)
  visited := List.replicate g.size false
  depths := List.replicate g.size 0
  order := []

def visit (g : Numbered) (d : Discovery) (i depth : Nat) (stack : List (Nat × Nat)) : Discovery :=
  let visited := d.visited.set i true
  let next := (g.childrenAt i).filter fun child => !visited.getD child false
  { stack := next.map (fun child => (child, depth + 1)) ++ stack
    visited
    depths := d.depths.set i depth
    order := d.order ++ [i] }

def step (g : Numbered) (d : Discovery) : Option Discovery :=
  match d.stack with
  | [] => none
  | (i, depth) :: stack =>
    if d.visited.getD i false then some { d with stack := stack }
    else some (d.visit g i depth stack)

def finish (g : Numbered) : Discovery := iterate (step g) (g.edgeCount + 2) (start g)

end Discovery

structure Traversal where
  /-- The path from the start to the node that is looked at, each node with the number of children
  that have been looked at, the last node first. -/
  stack : List (Nat × Nat)
  marks : List Mark
  /-- The children of each node to which an edge is kept, the first one first. -/
  forward : List (List Nat)
  preorder : List Nat
  postorder : List Nat

namespace Traversal

def start (g : Numbered) : Traversal :=
  let marks := List.replicate g.size Mark.unseen
  let forward := List.replicate g.size []
  match g.start? with
  | none => ⟨[], marks, forward, [], []⟩
  | some i => ⟨[(i, 0)], marks.set i .onPath, forward, [i], []⟩

/-- Keeps the edge from a node to a child. -/
def keep (w : Traversal) (i child : Nat) : List (List Nat) :=
  w.forward.set i (w.forward.getD i [] ++ [child])

def step (g : Numbered) (w : Traversal) : Option Traversal :=
  match w.stack with
  | [] => none
  | (i, next) :: stack =>
    match (g.childrenAt i)[next]? with
    | none =>
      some { w with
        stack := stack
        marks := w.marks.set i .done
        postorder := w.postorder ++ [i] }
    | some child =>
      let stack := (i, next + 1) :: stack
      match w.marks.getD child .unseen with
      | .unseen =>
        some { w with
          stack := (child, 0) :: stack
          marks := w.marks.set child .onPath
          forward := w.keep i child
          preorder := w.preorder ++ [child] }
      | .onPath => some { w with stack := stack }
      | .done => some { w with stack := stack, forward := w.keep i child }

def finish (g : Numbered) : Traversal :=
  iterate (step g) (g.edgeCount + g.size + 1) (start g)

end Traversal

def relaxChild (i : Nat) (depths : List Nat) (child : Nat) : List Nat :=
  depths.set child (max (depths.getD child 0) (depths.getD i 0 + 1))

def relaxed (g : Numbered) (w : Traversal) : List Nat :=
  w.postorder.reverse.foldl (fun depths i => (w.forward.getD i []).foldl (relaxChild i) depths)
    (List.replicate g.size 0)

/-- The nodes that can be reached in the order of a walk, and the depths of all nodes. -/
def order (g : Numbered) : Mode → List Nat × List Nat
  | .firstDiscovery => ((Discovery.finish g).order, (Discovery.finish g).depths)
  | .compact => ((Traversal.finish g).preorder, relaxed g (Traversal.finish g))

end Numbered

end Layout

end Dialogue
