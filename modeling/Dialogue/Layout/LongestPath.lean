import Dialogue.Layout.Graph
/-!
# Longest paths

A depth-first walk that tells forward edges from those that lead back to the path walked, and the
length of the longest path of forward edges from the start to each node.
-/

namespace Dialogue.Layout

/-- Where a node stands in a walk. -/
inductive Mark where
  | unseen
  | onPath
  | done
  deriving DecidableEq, Inhabited

/-- A depth-first walk that stands between two edges. -/
structure Traversal where
  /-- The path from the start to the node that is looked at, each node with the children that have
  not been looked at, the last node first. -/
  path : List (String × List String)
  marks : SortedMap Mark
  /-- The nodes met so far, the last one first. -/
  preorder : List String
  /-- The nodes done so far, the last one first. -/
  finished : List String
  /-- The edges that do not lead back to the path, the last one first. -/
  forward : List (String × String)

namespace Traversal

def mark (w : Traversal) (id : String) : Mark := (w.marks.get? id).getD .unseen

def start (t : Tree) : Traversal :=
  if t.isPlayable then
    ⟨[(t.start, t.children t.start)], SortedMap.empty.insert t.start .onPath, [t.start], [], []⟩
  else ⟨[], .empty, [], [], []⟩

/-- Looks at the next child of the node that the path ends in, or leaves that node. -/
def step (t : Tree) (w : Traversal) : Option Traversal :=
  match w.path with
  | [] => none
  | (id, []) :: path =>
    some { w with path := path, marks := w.marks.insert id .done, finished := id :: w.finished }
  | (id, child :: more) :: path =>
    match w.mark child with
    | .unseen =>
      some { w with
        path := (child, t.children child) :: (id, more) :: path
        marks := w.marks.insert child .onPath
        preorder := child :: w.preorder
        forward := (id, child) :: w.forward }
    | .onPath => some { w with path := (id, more) :: path }
    | .done => some { w with path := (id, more) :: path, forward := (id, child) :: w.forward }

/-- A bound on the number of steps: each child is looked at once and each node is left once. -/
def budget (t : Tree) : Nat := t.edgeCount + t.nodes.size + 1

def finish (t : Tree) : Traversal := iterate (step t) (budget t) (start t)

end Traversal

def depthOf (depths : SortedMap Nat) (id : String) : Nat := (depths.get? id).getD 0

/-- Brings the node at the end of an edge at least one level below the one at its start. -/
def relaxEdge (depths : SortedMap Nat) (edge : String × String) : SortedMap Nat :=
  depths.insert edge.2 (max (depthOf depths edge.2) (depthOf depths edge.1 + 1))

def relaxNode (edges : List (String × String)) (depths : SortedMap Nat) (id : String) :
    SortedMap Nat :=
  (edges.filter fun edge => edge.1 = id).foldl relaxEdge depths

/-- The depths along the forward edges. The nodes are taken in the reverse of the order in which they
were done, so that a node comes after all that lead to it. -/
def relaxed (w : Traversal) : SortedMap Nat :=
  w.finished.foldl (relaxNode w.forward.reverse) .empty

/-- The nodes that can be reached from the start with the length of the longest path of forward
edges to each, in the order of a depth-first walk. -/
def longestPath (t : Tree) : List (String × Nat) :=
  let w := Traversal.finish t
  let depths := relaxed w
  w.preorder.reverse.map fun id => (id, depthOf depths id)

end Dialogue.Layout
