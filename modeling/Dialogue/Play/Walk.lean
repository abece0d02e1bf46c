import Dialogue.Play.Session
/-!
# Walks

A walk through a tree takes one available choice after the other and keeps track of the nodes that it
visits. Which of the available choices is taken is decided by a sequence of picks.
-/

namespace Dialogue

/-- What happened in a walk. -/
inductive Walk.Event where
  /-- A choice led on, and this line was shown. -/
  | shown (message : Message)
  | ended (ending : Ending)
  /-- No choice was available at a node. -/
  | stuck (node : String)
  | refused (refusal : Session.Refusal)
  deriving DecidableEq

/-- A walk so far. -/
structure Walk where
  session : Session
  /-- The ids of the nodes visited. -/
  visited : SortedMap Unit
  /-- The number of choices taken. -/
  taken : Nat
  events : List Walk.Event
  deriving DecidableEq

namespace Walk

def start (s : Session) : Walk := ⟨s, SortedMap.empty.insert s.snapshot.node (), 0, []⟩

def available (s : Session) : List Nat := (s.offers.filter (·.available)).map (·.index)

def picked? (choices : List Nat) (pick : Nat) : Option Nat := choices[pick % choices.length]?

def note (w : Walk) (e : Event) : Walk := { w with events := w.events ++ [e] }

def after (w : Walk) (outcome : Session.Outcome) (s : Session) : Walk :=
  match outcome with
  | .advanced node =>
    { session := s
      visited := w.visited.insert node ()
      taken := w.taken + 1
      events := w.events ++ s.snapshot.last?.toList.map Event.shown }
  | .ended ending => { (w.note (.ended ending)) with session := s, taken := w.taken + 1 }

/-- Takes at most so many steps; number `n` of them with the pick `picks n`. -/
def go (picks : Nat → Nat) : Nat → Walk → Walk
  | 0, w => w
  | steps + 1, w =>
    match w.session.snapshot.status with
    | .ended _ => w
    | .active =>
      match picked? (available w.session) (picks w.taken) with
      | none => w.note (.stuck w.session.snapshot.node)
      | some index =>
        match w.session.choose index with
        | (.error refusal, s) => { (w.note (.refused refusal)) with session := s }
        | (.ok outcome, s) => go picks steps (w.after outcome s)

def of (picks : Nat → Nat) (steps : Nat) (s : Session) : Walk := go picks steps (start s)

/-- The ids of the nodes that the walk did not visit, in order. -/
def unvisited (w : Walk) : List String :=
  Vocabulary.sorted (w.session.tree.nodes.keys.filter fun id => !w.visited.contains id)

end Walk

end Dialogue
