import Dialogue.Play.Snapshot
import Dialogue.Review.Annotation
import Dialogue.Review.Vocabulary
import Dialogue.Story.Portrait
/-!
# Sessions

Playing a tree. A session stands at a node and moves only when a choice is taken; after the
conversation has ended it takes none until it is reset. What it refuses changes nothing.
-/

namespace Dialogue

/-- The node that an id leads to. The empty id leads nowhere. -/
def Tree.target? (t : Tree) (id : String) : Option Node := if id = "" then none else t.node? id

/-- The text and the emotion that a node shows: those of the first variation that is open, else its
own. A variation without an emotion leaves the node's. -/
def Node.shown (n : Node) (w : World) : String × Option String :=
  match firstOpen n.otherTexts w with
  | none => (n.text, n.emotion)
  | some v => (v.text, (v.emotion.filter (· ≠ "")) <|> n.emotion)

namespace Session

/-- What the host decides about a session. -/
structure Config where
  /-- The counters that are written at the start. -/
  counters : Counters
  /-- The portrait that is shown where a speaker has none. -/
  portrait : Option String
  deriving DecidableEq, Inhabited

/-- No counter is written, and there is no portrait to fall back on. -/
def Config.bare : Config := ⟨.none, none⟩

/-- How a host asks for a session. -/
structure Setup where
  /-- Counters to write at the start, in order. -/
  seeds : List (String × Int64)
  /-- Whether every counter that the tree mentions starts at zero. -/
  seedsKnown : Bool
  portrait : Option String
  deriving DecidableEq, Inhabited

/-- The configuration that is asked for. Seeds come before zeros. -/
def Setup.config (setup : Setup) (t : Tree) : Config where
  counters :=
    let seeded := Counters.ofList setup.seeds
    if setup.seedsKnown then
      (Vocabulary.of t).counters.foldl (fun counters key => counters.seed key 0) seeded
    else seeded
  portrait := setup.portrait

end Session

def Message.of (t : Tree) (config : Session.Config) (n : Node) (w : World) (via : Option String) :
    Message :=
  let (rawText, emotion) := n.shown w
  let text := Interpolation.substitute rawText w.counters
  { node := n.id
    speaker := n.speaker
    rawText
    text
    spans := Markup.spans text
    emotion
    portrait := t.portrait n.character emotion config.portrait
    via }

def Snapshot.initial (t : Tree) (config : Session.Config) : Snapshot :=
  let world : World := ⟨.none, config.counters⟩
  match t.startNode? with
  | some n => ⟨t.start, world, [Message.of t config n world none], .active⟩
  | none => ⟨t.start, world, [], .ended (.missingTarget t.start)⟩

/-- A conversation that is played. -/
structure Session where
  tree : Tree
  config : Session.Config
  snapshot : Snapshot
  deriving DecidableEq, Inhabited

namespace Session

/-- What came of a choice that was taken. -/
inductive Outcome where
  | advanced (node : String)
  | ended (ending : Ending)
  deriving DecidableEq, Inhabited

/-- Why no choice was taken. -/
inductive Refusal where
  | ended (ending : Ending)
  | unknownChoice (id : String)
  | choiceOutOfRange (index : Nat)
  | choiceLocked (id : String)
  deriving DecidableEq, Inhabited

def Refusal.message : Refusal → String
  | ended ending => "conversation has ended (" ++ ending.describe ++ "); reset to continue"
  | unknownChoice id => "no choice '" ++ id ++ "' at the current node"
  | choiceOutOfRange index => "choice index " ++ toString index ++ " is out of range"
  | choiceLocked id => "choice '" ++ id ++ "' is locked by its prerequisites"

/-- A choice as it is offered. -/
structure Offer where
  index : Nat
  choice : Choice
  available : Bool
  text : String
  spans : List Markup.Span
  dangling : Bool
  lockedReason : Option String
  deriving DecidableEq, Inhabited

def start (t : Tree) (config : Config) : Session := ⟨t, config, .initial t config⟩

/-- A session that is taken up again at a snapshot. -/
def resume (t : Tree) (config : Config) (snapshot : Snapshot) : Session := ⟨t, config, snapshot⟩

def world (s : Session) : World := s.snapshot.world

/-- The current node, if there is one. -/
def node? (s : Session) : Option Node := s.tree.node? s.snapshot.node

def choices (s : Session) : List Choice :=
  match s.node? with
  | none => []
  | some n => n.choices

def isAvailable (s : Session) (c : Choice) : Bool := isOpen c.gate s.world

def offer (s : Session) (index : Nat) (c : Choice) : Offer :=
  let text := Interpolation.substitute c.text s.world.counters
  { index
    choice := c
    available := s.isAvailable c
    text
    spans := Markup.spans text
    dangling := s.tree.isDangling c
    lockedReason := if s.isAvailable c then none else c.lockedReason s.world.flags }

/-- All choices of the current node, the locked ones too. After the end there are none. -/
def offers (s : Session) : List Offer :=
  match s.snapshot.status with
  | .ended _ => []
  | .active => s.choices.zipIdx.map fun entry => s.offer entry.2 entry.1

def close (s : Session) (ending : Ending) : Outcome × Session :=
  (.ended ending, { s with snapshot.status := .ended ending })

/-- Goes to the node of an id, by a choice with the text `via`. -/
def goTo (s : Session) (target via : String) : Outcome × Session :=
  match s.tree.target? target with
  | none => s.close (.missingTarget target)
  | some n =>
    let message := Message.of s.tree s.config n s.world (some via)
    (.advanced target,
      { s with
        snapshot.node := target
        snapshot.transcript := s.snapshot.transcript ++ [message] })

/-- Takes a choice of the current node: its changes are made, and then the conversation ends or goes
where the choice leads after them. The session after the attempt stands beside what came of it. -/
def take (s : Session) (c : Choice) : Except Refusal Outcome × Session :=
  if s.isAvailable c then
    let s := { s with snapshot.world := c.effect s.world }
    let (outcome, s) := match c.exitStatus with
      | some status => s.close (.exit status)
      | none => s.goTo (c.destination s.world) c.text
    (.ok outcome, s)
  else (.error (.choiceLocked c.id), s)

/-- Takes a choice that was looked up at the current node, unless the conversation has ended. -/
def takeFound (s : Session) (found : Option Choice) (missing : Refusal) :
    Except Refusal Outcome × Session :=
  match s.snapshot.status with
  | .ended ending => (.error (.ended ending), s)
  | .active =>
    match found with
    | none => (.error missing, s)
    | some c => s.take c

def apply (s : Session) (id : String) : Except Refusal Outcome × Session :=
  s.takeFound (s.choices.find? fun c => c.id = id) (.unknownChoice id)

/-- Takes the choice with a number, counted from zero. -/
def choose (s : Session) (index : Nat) : Except Refusal Outcome × Session :=
  s.takeFound s.choices[index]? (.choiceOutOfRange index)

def reset (s : Session) : Session := start s.tree s.config

def setFlag (s : Session) (flag : String) : Session :=
  { s with snapshot.world.flags := s.world.flags.set flag }

def clearFlag (s : Session) (flag : String) : Session :=
  { s with snapshot.world.flags := s.world.flags.clear flag }

def toggleFlag (s : Session) (flag : String) : Session :=
  { s with snapshot.world.flags := s.world.flags.toggle flag }

def hasFlag (s : Session) (flag : String) : Bool := s.world.flags.contains flag

def setCounter (s : Session) (key : String) (value : Int64) : Session :=
  { s with snapshot.world.counters := s.world.counters.set key value }

/-- Something that can be done with a session. -/
inductive Op where
  | apply (id : String)
  | choose (index : Nat)
  | setFlag (flag : String)
  | clearFlag (flag : String)
  | toggleFlag (flag : String)
  | setCounter (key : String) (value : Int64)
  | reset
  deriving DecidableEq

/-- What comes back. -/
inductive Answer where
  | taken (outcome : Outcome)
  | refused (refusal : Refusal)
  | toggled (isSet : Bool)
  | done
  deriving DecidableEq

/-- The answer to an attempt to take a choice. -/
def Answer.of : Except Refusal Outcome → Answer
  | .ok outcome => .taken outcome
  | .error refusal => .refused refusal

def perform (s : Session) : Op → Answer × Session
  | .apply id =>
    let (result, s) := s.apply id
    (.of result, s)
  | .choose index =>
    let (result, s) := s.choose index
    (.of result, s)
  | .setFlag flag => (.done, s.setFlag flag)
  | .clearFlag flag => (.done, s.clearFlag flag)
  | .toggleFlag flag => (.toggled ((s.toggleFlag flag).hasFlag flag), s.toggleFlag flag)
  | .setCounter key value => (.done, s.setCounter key value)
  | .reset => (.done, s.reset)

/-- Does one thing after the other: the answers in order, and the session in the end. -/
def run (s : Session) : List Op → List Answer × Session
  | [] => ([], s)
  | op :: ops =>
    let (answer, s) := s.perform op
    let (answers, s) := run s ops
    (answer :: answers, s)

end Session

end Dialogue
