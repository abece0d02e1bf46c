import Dialogue.Shape.Stored
import Dialogue.Story.Tree
/-!
# The stored form of a story

How trees and their parts are written: the names and the order of their fields, and what a missing
field stands for.
-/

namespace Dialogue

instance : Stored Comparison where
  shape := .text
  toDatum c := .text c.sign
  ofDatum
    | .text sign => some (.ofSign sign)
    | _ => none

instance : Stored Condition where
  shape := .record (.record "StateCondition")
    [(.required "key", shapeOf String), (.required "operator", shapeOf Comparison),
     (.required "value", shapeOf Int64)]
  toDatum c := .record [toDatum c.key, toDatum c.comparison, toDatum c.value]
  ofDatum
    | .record [key, comparison, value] =>
      return ⟨← ofDatum key, ← ofDatum comparison, ← ofDatum value⟩
    | _ => none

instance : Stored Gate where
  shape := .record (.record "Prerequisites")
    [(.hidden "requiredFlags", shapeOf (Option (List String))),
     (.hidden "blockedFlags", shapeOf (Option (List String))),
     (.hidden "stateConditions", shapeOf (Option (List Condition)))]
  toDatum g := .record [toDatum g.required, toDatum g.blocked, toDatum g.conditions]
  ofDatum
    | .record [required, blocked, conditions] =>
      return ⟨← ofDatum required, ← ofDatum blocked, ← ofDatum conditions⟩
    | _ => none

instance : Stored Operation where
  shape := .text
  toDatum operation := .text operation.name
  ofDatum
    | .text name => some (.ofName name)
    | _ => none

instance : Stored Adjustment where
  shape := .record (.record "StateChange")
    [(.required "key", shapeOf String), (.required "value", shapeOf Int64),
     (.hidden "operation", shapeOf (Option Operation))]
  toDatum a := .record [toDatum a.key, toDatum a.value, toDatum a.operation]
  ofDatum
    | .record [key, value, operation] =>
      return ⟨← ofDatum key, ← ofDatum value, ← ofDatum operation⟩
    | _ => none

instance : Stored FlagChanges where
  shape := .record (.record "FlagChanges")
    [(.hidden "add", shapeOf (Option (List String))),
     (.hidden "remove", shapeOf (Option (List String)))]
  toDatum c := .record [toDatum c.add, toDatum c.remove]
  ofDatum
    | .record [add, remove] => return ⟨← ofDatum add, ← ofDatum remove⟩
    | _ => none

instance : Stored Detour where
  shape := .record (.record "AlternateDestination")
    [(.required "nextNodeId", shapeOf String),
     (.defaulting "prerequisites" (toDatum Gate.free), shapeOf Gate)]
  toDatum d := .record [toDatum d.target, toDatum d.gate]
  ofDatum
    | .record [target, gate] => return ⟨← ofDatum target, ← ofDatum gate⟩
    | _ => none

instance : Stored Exit where
  shape := .record (.record "ChoiceExit") [(.required "status", shapeOf String)]
  toDatum e := .record [toDatum e.status]
  ofDatum
    | .record [status] => return ⟨← ofDatum status⟩
    | _ => none

instance : Stored Choice where
  shape := .record (.record "DialogueChoice")
    [(.required "id", shapeOf String), (.defaulting "text" (.text ""), shapeOf String),
     (.defaulting "nextNodeId" (.text ""), shapeOf String),
     (.hidden "prerequisites", shapeOf (Option Gate)),
     (.hidden "flagChanges", shapeOf (Option FlagChanges)),
     (.hidden "stateChanges", shapeOf (Option (List Adjustment))),
     (.hidden "alternateDestinations", shapeOf (Option (List Detour))),
     (.hidden "exit", shapeOf (Option Exit))]
  toDatum c := .record
    [toDatum c.id, toDatum c.text, toDatum c.target, toDatum c.gate, toDatum c.flagChanges,
     toDatum c.adjustments, toDatum c.detours, toDatum c.exit]
  ofDatum
    | .record [id, text, target, gate, flagChanges, adjustments, detours, exit] =>
      return ⟨← ofDatum id, ← ofDatum text, ← ofDatum target, ← ofDatum gate,
        ← ofDatum flagChanges, ← ofDatum adjustments, ← ofDatum detours, ← ofDatum exit⟩
    | _ => none

instance : Stored Character where
  shape := .record (.record "Character")
    [(.defaulting "name" (.text ""), shapeOf String),
     (.defaulting "defaultEmotion" (.text ""), shapeOf String),
     (.defaulting "portraits" (.table []), shapeOf (Catalog String))]
  toDatum c := .record [toDatum c.name, toDatum c.defaultEmotion, toDatum c.portraits]
  ofDatum
    | .record [name, defaultEmotion, portraits] =>
      return ⟨← ofDatum name, ← ofDatum defaultEmotion, ← ofDatum portraits⟩
    | _ => none

instance : Stored Variation where
  shape := .record (.record "AlternateText")
    [(.required "text", shapeOf String), (.hidden "emotion", shapeOf (Option String)),
     (.hidden "prerequisites", shapeOf (Option Gate))]
  toDatum v := .record [toDatum v.text, toDatum v.emotion, toDatum v.gate]
  ofDatum
    | .record [text, emotion, gate] =>
      return ⟨← ofDatum text, ← ofDatum emotion, ← ofDatum gate⟩
    | _ => none

instance : Stored Node where
  shape := .record (.record "DialogueNode")
    [(.defaulting "id" (.text ""), shapeOf String),
     (.defaulting "character" (.text ""), shapeOf String),
     (.defaulting "speaker" (.text ""), shapeOf String),
     (.defaulting "text" (.text ""), shapeOf String),
     (.hidden "emotion", shapeOf (Option String)),
     (.hidden "alternateTexts", shapeOf (Option (List Variation))),
     (.defaulting "choices" (.list []), shapeOf (List Choice))]
  toDatum n := .record
    [toDatum n.id, toDatum n.character, toDatum n.speaker, toDatum n.text, toDatum n.emotion,
     toDatum n.variations, toDatum n.choices]
  ofDatum
    | .record [id, character, speaker, text, emotion, variations, choices] =>
      return ⟨← ofDatum id, ← ofDatum character, ← ofDatum speaker, ← ofDatum text,
        ← ofDatum emotion, ← ofDatum variations, ← ofDatum choices⟩
    | _ => none

instance : Stored Tree where
  shape := .record (.record "DialogueTree")
    [(.defaulting "name" (.text ""), shapeOf String),
     (.defaulting "characters" (.table []), shapeOf (Catalog Character)),
     (.required "startNodeId", shapeOf String), (.required "nodes", shapeOf (Catalog Node))]
  toDatum t := .record [toDatum t.name, toDatum t.characters, toDatum t.start, toDatum t.nodes]
  ofDatum
    | .record [name, characters, start, nodes] =>
      return ⟨← ofDatum name, ← ofDatum characters, ← ofDatum start, ← ofDatum nodes⟩
    | _ => none

instance : Stored Flags where
  shape := shapeOf (List String)
  toDatum f := toDatum f.toList
  ofDatum d := (ofDatum d).map Flags.ofList

instance : Stored Counters where
  shape := .table (shapeOf Int64)
  toDatum c := .table (c.toList.map fun entry => (entry.1, toDatum entry.2))
  ofDatum
    | .table entries => (entriesOfData entries).map Counters.ofList
    | _ => none

end Dialogue
