import Dialogue.Editor.Desk
import Dialogue.Editor.Sample
import Dialogue.Play.Form
import Dialogue.Play.Session
/-!
# The editor's preview

A session that an editor drives, with its answers as JSON text.
-/

namespace Dialogue.Editor

/-- A preview as an editor holds it. Between two calls it keeps only the snapshot of its session, and
each call takes the session up again from there. -/
structure Handle where
  tree : Tree
  config : Session.Config
  snapshot : Snapshot
  deriving DecidableEq, Inhabited

namespace Handle

def session (h : Handle) : Session := .resume h.tree h.config h.snapshot

instance : Coe Handle Session := ⟨session⟩

/-- Does something with the session of a preview, and keeps the snapshot at which that leaves it. -/
def withSession {α : Type} (h : Handle) (act : Session → α × Session) : α × Handle :=
  let (a, s) := act h.session
  (a, { h with snapshot := s.snapshot })

end Handle

/-- Begins a preview. The seeds are an object of counters and may be blank. -/
def preview (tree seeds : String) (seedsKnown : Bool) (portrait : Option String) :
    Except Problem Handle := do
  let t ← readTree tree
  let counters ← readCounters seeds
  let setup : Session.Setup := ⟨counters.toList, seedsKnown, portrait⟩
  let config := setup.config t
  return ⟨t, config, (Session.start t config).snapshot⟩

/-- Begins a preview of the sample tree, with ten gold and all counters seeded. -/
def samplePreview : Except Problem Handle := preview sampleText "\x7b\"gold\": 10\x7d" true none

/-- A choice as it is offered. -/
structure OfferView where
  index : Nat
  id : String
  text : String
  spans : List Markup.Span
  available : Bool
  dangling : Bool
  exitStatus : Option String
  lockedReason : Option String
  deriving DecidableEq

namespace OfferView

def of (o : Session.Offer) : OfferView where
  index := o.index
  id := o.choice.id
  text := o.text
  spans := o.spans
  available := o.available
  dangling := o.dangling
  exitStatus := o.choice.exitStatus
  lockedReason := o.lockedReason

def toJson (v : OfferView) : Json :=
  .object
    [("index", .natural v.index), ("id", .text v.id), ("text", .text v.text),
     ("spans", Json.write v.spans), ("available", .flag v.available),
     ("dangling", .flag v.dangling), ("exitStatus", .optionalText v.exitStatus),
     ("lockedReason", .optionalText v.lockedReason)]

end OfferView

def offerView (o : Session.Offer) : Json := (OfferView.of o).toJson

/-- What came of a choice. The status alone cannot tell a missing target from an exit of that name. -/
structure OutcomeView where
  ended : Bool
  node : Option String
  status : Option String
  missingTarget : Bool
  missingNode : Option String
  deriving DecidableEq

namespace OutcomeView

def of : Session.Outcome → OutcomeView
  | .advanced node => ⟨false, some node, none, false, none⟩
  | .ended (.exit status) => ⟨true, none, some status, false, none⟩
  | .ended (.missingTarget node) => ⟨true, none, some Ending.missingTargetStatus, true, some node⟩

def toJson (v : OutcomeView) : Json :=
  .object
    [("ended", .flag v.ended), ("nodeId", .optionalText v.node),
     ("status", .optionalText v.status), ("missingTarget", .flag v.missingTarget),
     ("missingNodeId", .optionalText v.missingNode)]

end OutcomeView

/-- What an editor asks about a preview. -/
inductive Question where
  | transcript
  | choices
  | isEnded
  | currentNode
  | snapshot
  deriving DecidableEq

/-- What an editor does with a preview. -/
inductive Call where
  | ask (question : Question)
  | perform (op : Session.Op)
  deriving DecidableEq

/-- What an editor gets back. -/
inductive Reply where
  | json (text : String)
  | flag (b : Bool)
  | text (s : String)
  | nothing
  | refused (refusal : Session.Refusal)
  deriving DecidableEq

def Reply.of : Session.Answer → Reply
  | .taken outcome => .json (OutcomeView.of outcome).toJson.compact
  | .refused refusal => .refused refusal
  | .toggled isSet => .flag isSet
  | .done => .nothing

def Question.reply (h : Handle) : Question → Reply
  | transcript => .json (Json.writeCompact h.snapshot.transcript)
  | choices => .json (Json.array (h.session.offers.map offerView)).compact
  | isEnded => .flag h.session.snapshot.isEnded
  | currentNode => .text h.snapshot.node
  | snapshot => .json (Json.writeCompact h.snapshot)

/-- The reply to a call, and the preview after it. -/
def reply (h : Handle) : Call → Reply × Handle
  | .ask question => (question.reply h, h)
  | .perform op =>
    let (answer, h) := h.withSession fun s => s.perform op
    (.of answer, h)

/-- The replies to calls, one after the other, and the preview in the end. -/
def replies (h : Handle) : List Call → List Reply × Handle
  | [] => ([], h)
  | call :: calls =>
    let (first, h) := reply h call
    let (rest, h) := replies h calls
    (first :: rest, h)

end Dialogue.Editor
