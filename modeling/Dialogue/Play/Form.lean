import Dialogue.Markup.Form
import Dialogue.Play.Snapshot
import Dialogue.Story.Form
/-!
# The stored form of snapshots

A conversation can be written down and taken up again later.
-/

namespace Dialogue

instance : Stored Ending where
  shape := .choice
    [("Exit", some (.record (.variant "TerminalEvent" "Exit")
      [(.required "status", shapeOf String)])),
     ("MissingTarget", some (.record (.variant "TerminalEvent" "MissingTarget")
      [(.required "node_id", shapeOf String)]))]
  toDatum
    | .exit status => .variant "Exit" (some (.record [toDatum status]))
    | .missingTarget node => .variant "MissingTarget" (some (.record [toDatum node]))
  ofDatum
    | .variant "Exit" (some (.record [status])) => (ofDatum status).map Ending.exit
    | .variant "MissingTarget" (some (.record [node])) => (ofDatum node).map Ending.missingTarget
    | _ => none

instance : Stored Status where
  shape := .choice [("Active", none), ("Ended", some (shapeOf Ending))]
  toDatum
    | .active => .variant "Active" none
    | .ended ending => .variant "Ended" (some (toDatum ending))
  ofDatum
    | .variant "Active" none => some .active
    | .variant "Ended" (some ending) => (ofDatum ending).map Status.ended
    | _ => none

instance : Stored Message where
  shape := .record (.record "Message")
    [(.required "node_id", shapeOf String), (.required "speaker", shapeOf String),
     (.required "raw_text", shapeOf String), (.required "text", shapeOf String),
     (.required "spans", shapeOf (List Markup.Span)),
     (.nullable "emotion", shapeOf (Option String)),
     (.nullable "portrait", shapeOf (Option String)),
     (.nullable "via_choice", shapeOf (Option String))]
  toDatum m := .record
    [toDatum m.node, toDatum m.speaker, toDatum m.rawText, toDatum m.text, toDatum m.spans,
     toDatum m.emotion, toDatum m.portrait, toDatum m.via]
  ofDatum
    | .record [node, speaker, rawText, text, spans, emotion, portrait, via] =>
      return ⟨← ofDatum node, ← ofDatum speaker, ← ofDatum rawText, ← ofDatum text,
        ← ofDatum spans, ← ofDatum emotion, ← ofDatum portrait, ← ofDatum via⟩
    | _ => none

instance : Stored Snapshot where
  shape := .record (.record "SessionState")
    [(.required "current_node_id", shapeOf String), (.required "flags", shapeOf Flags),
     (.required "state", shapeOf Counters), (.required "transcript", shapeOf (List Message)),
     (.required "status", shapeOf Status)]
  toDatum s := .record
    [toDatum s.node, toDatum s.world.flags, toDatum s.world.counters, toDatum s.transcript,
     toDatum s.status]
  ofDatum
    | .record [node, flags, counters, transcript, status] =>
      return ⟨← ofDatum node, ⟨← ofDatum flags, ← ofDatum counters⟩, ← ofDatum transcript,
        ← ofDatum status⟩
    | _ => none

end Dialogue
