import Dialogue.Editor.Preview
import Dialogue.Proofs.Json.RoundTrip
import Dialogue.Proofs.Outcome
import Dialogue.Proofs.Play.Parking
import Dialogue.Proofs.Play.Selection
import Dialogue.Proofs.Story.Saving
/-!
# A preview is one session

An editor's preview takes a session up again for each call and keeps only its snapshot.  Its replies
are still those of one session that hears all the calls, shown as JSON.  The view of an outcome loses
nothing: no two outcomes look alike, not even as text.  What a view shows of an offer can be read off
the text.
-/

namespace Dialogue.Editor

/-! ## A session that hears calls -/

inductive Heard where
  | transcript (messages : List Message)
  | choices (offers : List Session.Offer)
  | isEnded (b : Bool)
  | currentNode (id : String)
  | snapshot (taken : Snapshot)
  | answer (given : Session.Answer)

namespace Heard

def view : Heard → Reply
  | .transcript messages => .json (Json.writeCompact messages)
  | .choices offers => .json (Json.array (offers.map offerView)).compact
  | .isEnded b => .flag b
  | .currentNode id => .text id
  | .snapshot taken => .json (Json.writeCompact taken)
  | .answer given => .of given

def answer? : Heard → Option Session.Answer
  | .answer given => some given
  | _ => none

end Heard

def Call.op? : Call → Option Session.Op
  | .ask _ => none
  | .perform op => some op

def hear (s : Session) : Call → Heard × Session
  | .ask .transcript => (.transcript s.snapshot.transcript, s)
  | .ask .choices => (.choices s.offers, s)
  | .ask .isEnded => (.isEnded s.snapshot.isEnded, s)
  | .ask .currentNode => (.currentNode s.snapshot.node, s)
  | .ask .snapshot => (.snapshot s.snapshot, s)
  | .perform op => (.answer (s.perform op).1, (s.perform op).2)

def hearAll (s : Session) : List Call → List Heard × Session
  | [] => ([], s)
  | call :: calls =>
    let (first, s) := hear s call
    let (rest, s) := hearAll s calls
    (first :: rest, s)

def Handle.of (s : Session) : Handle := ⟨s.tree, s.config, s.snapshot⟩

instance : Stored OutcomeView where
  shape := .record (.record "TransitionView")
    [(.required "ended", shapeOf Bool), (.nullable "nodeId", shapeOf (Option String)),
     (.nullable "status", shapeOf (Option String)), (.required "missingTarget", shapeOf Bool),
     (.nullable "missingNodeId", shapeOf (Option String))]
  toDatum v := .record
    [toDatum v.ended, toDatum v.node, toDatum v.status, toDatum v.missingTarget,
     toDatum v.missingNode]
  ofDatum
    | .record [ended, node, status, missingTarget, missingNode] =>
      return ⟨← ofDatum ended, ← ofDatum node, ← ofDatum status, ← ofDatum missingTarget,
        ← ofDatum missingNode⟩
    | _ => none

instance : LawfulStored OutcomeView where
  fits v := .record rfl (by simp [fits])
  ofDatum_toDatum v := by
    change Option.bind (ofDatum (toDatum _)) _ = _
    simp

namespace OutcomeView

theorem write_eq_toJson (v : OutcomeView) : Json.write v = v.toJson := by
  obtain ⟨ended, node, status, missingTarget, missingNode⟩ := v
  cases node <;> cases status <;> cases missingNode <;> rfl

theorem isSound_shape : (shapeOf OutcomeView).isSound = true := by decide +kernel

end OutcomeView

instance : Stored OfferView where
  shape := .record (.record "ChoiceView")
    [(.required "index", shapeOf Nat), (.required "id", shapeOf String),
     (.required "text", shapeOf String), (.required "spans", shapeOf (List Markup.Span)),
     (.required "available", shapeOf Bool), (.required "dangling", shapeOf Bool),
     (.nullable "exitStatus", shapeOf (Option String)),
     (.nullable "lockedReason", shapeOf (Option String))]
  toDatum v := .record
    [toDatum v.index, toDatum v.id, toDatum v.text, toDatum v.spans, toDatum v.available,
     toDatum v.dangling, toDatum v.exitStatus, toDatum v.lockedReason]
  ofDatum
    | .record [index, id, text, spans, available, dangling, exitStatus, lockedReason] =>
      return ⟨← ofDatum index, ← ofDatum id, ← ofDatum text, ← ofDatum spans, ← ofDatum available,
        ← ofDatum dangling, ← ofDatum exitStatus, ← ofDatum lockedReason⟩
    | _ => none

namespace OfferView

/-- A view fits its shape unless its number takes more than 64 bits. -/
theorem fits_toDatum {v : OfferView} (h : v.index < Text.sizeBound) :
    Fits (shapeOf OfferView) (toDatum v) :=
  .record rfl (by simp [fits, show Fits (shapeOf Nat) (toDatum v.index) from .size h])

theorem ofDatum_toDatum (v : OfferView) : ofDatum (toDatum v) = some v := by
  have hindex : ofDatum (toDatum v.index) = some v.index := rfl
  change Option.bind (ofDatum (toDatum _)) _ = _
  simp [hindex]

theorem write_eq_toJson (v : OfferView) : Json.write v = v.toJson := by
  obtain ⟨index, id, text, spans, available, dangling, exitStatus, lockedReason⟩ := v
  cases exitStatus <;> cases lockedReason <;> rfl

theorem isSound_shape : (shapeOf (List OfferView)).isSound = true := by decide +kernel

end OfferView

/-- The offers that a session makes can be read off the text that shows them: the number, the id, the
text and all else that is shown of each, in their order. -/
theorem readPlaced_choices {s : Session} (h : s.offers.length ≤ Text.sizeBound) :
    Json.readPlaced (List OfferView) (Json.array (s.offers.map offerView)).compact =
      .ok (s.offers.map OfferView.of) := by
  have hfits : Fits (shapeOf (List OfferView)) (toDatum (s.offers.map OfferView.of)) := by
    refine .list fun d hd => ?_
    obtain ⟨v, hv, rfl⟩ := List.mem_map.1 hd
    obtain ⟨offer, hoffer, rfl⟩ := List.mem_map.1 hv
    exact OfferView.fits_toDatum (Nat.lt_of_lt_of_le (Session.index_lt_of_mem_offers hoffer) h)
  have hback : ofDatum (toDatum (s.offers.map OfferView.of)) = some (s.offers.map OfferView.of) :=
    mapM_ofDatum fun v _ => v.ofDatum_toDatum
  have hwritten : Json.write (s.offers.map OfferView.of) = .array (s.offers.map offerView) := by
    have hview : offerView = Json.write ∘ OfferView.of :=
      funext fun o => (OfferView.of o).write_eq_toJson.symm
    rw [hview, ← List.map_map, Json.write_list]
  rw [← hwritten]
  exact Json.readPlaced_chars Json.Spacing.isBlank_compact OfferView.isSound_shape hfits hback

/-! ## A preview against its session -/

/-- What it is for a preview to keep up with a session: it shows what the session says to the same
calls, it ends up with the handle of the session that is left, and a call that is refused has left no
trace. -/
structure Handle.Follows (h : Handle) (s : Session) : Prop where
  replies_eq : ∀ calls, (replies h calls).1 = (hearAll s calls).1.map Heard.view
  session_eq : ∀ calls, (replies h calls).2.session = (hearAll s calls).2
  answers_eq : ∀ calls,
    ((hearAll s calls).1.filterMap Heard.answer?, (hearAll s calls).2) =
      s.run (calls.filterMap Call.op?)
  refused_eq : ∀ calls call refusal, (reply (replies h calls).2 call).1 = .refused refusal →
    (reply (replies h calls).2 call).2 = (replies h calls).2

end Dialogue.Editor
