import Dialogue.Story.Tree
/-!
# The graph of a tree

The nodes that a node leads to, and the walk that finds every node that can be reached from the
start. Both depend on existing nodes only: a target that is empty or names no node is left out.
-/

namespace Dialogue

/-- The nodes that a node leads to, in order and with repetitions: for each choice its own target
and then those of its detours. -/
def Tree.children (t : Tree) (id : String) : List String :=
  match t.node? id with
  | none => []
  | some node => (node.choices.flatMap Choice.targets).filter t.hasNode

def Tree.edgeCount (t : Tree) : Nat := (t.nodes.keys.flatMap t.children).length

namespace Layout

/-- Takes steps until there is none left to take, at most as many as the budget allows. -/
def iterate {σ : Type} (step : σ → Option σ) : Nat → σ → σ
  | 0, s => s
  | budget + 1, s =>
    match step s with
    | none => s
    | some s => iterate step budget s

/-- A depth-first walk that stands between two nodes. -/
structure Discovery where
  /-- The nodes to go on with, each with the depth at which it was met, the next one first. -/
  stack : List (String × Nat)
  /-- The nodes reached so far, each with its depth, the last one first. -/
  reached : List (String × Nat)
  deriving DecidableEq

namespace Discovery

def hasReached (d : Discovery) (id : String) : Bool := d.reached.any fun entry => entry.1 = id

def start (t : Tree) : Discovery :=
  ⟨if t.isPlayable then [(t.start, 0)] else [], []⟩

/-- The walk after it has taken up a node that had not been reached: the children that have not been
reached come next, and after them what was left on the stack. -/
def takeUp (t : Tree) (d : Discovery) (id : String) (depth : Nat)
    (stack : List (String × Nat)) : Discovery :=
  let reached := (id, depth) :: d.reached
  let next := (t.children id).filter fun child => !reached.any fun entry => entry.1 = child
  ⟨next.map (fun child => (child, depth + 1)) ++ stack, reached⟩

/-- Goes on with the next node, unless it has been reached before. Its depth is the one at which it
is first taken up. -/
def step (t : Tree) (d : Discovery) : Option Discovery :=
  match d.stack with
  | [] => none
  | (id, depth) :: stack =>
    if d.hasReached id then some { d with stack := stack } else some (takeUp t d id depth stack)

/-- A bound on the number of steps: each place in a list of children is taken up once at most. -/
def budget (t : Tree) : Nat := t.edgeCount + 2

def finish (t : Tree) : Discovery := iterate (step t) (budget t) (start t)

end Discovery

/-- The nodes that can be reached from the start with the depth at which each is first reached, in
the order of a depth-first walk. -/
def firstDiscovery (t : Tree) : List (String × Nat) := (Discovery.finish t).reached.reverse

/-- The nodes that can be reached from the start, in the order of a depth-first walk. -/
def reachableIds (t : Tree) : List String := (firstDiscovery t).map (·.1)

end Layout

end Dialogue
