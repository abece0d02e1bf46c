import Dialogue.Layout.Basic
import Dialogue.Shape.Stored
/-!
# The stored form of layouts

How layouts and their settings are written. A settings file names only what differs from the
standard settings.
-/

namespace Dialogue.Layout

def setting {α : Type} [Stored α] (name : String) (standard : α) : Field × Shape :=
  (.defaulting name (toDatum standard), shapeOf α)

def standardSettings : Config Float := .standard

instance : Stored (Config Float) where
  shape := .record (.record "LayoutConfig")
    [setting "horizontal_spacing" standardSettings.horizontalSpacing,
     setting "vertical_spacing" standardSettings.verticalSpacing,
     setting "node_margin" standardSettings.nodeMargin,
     setting "base_height" standardSettings.baseHeight,
     setting "chars_per_line" standardSettings.charsPerLine,
     setting "line_height" standardSettings.lineHeight,
     setting "choice_height" standardSettings.choiceHeight,
     setting "choices_padding" standardSettings.choicesPadding,
     setting "exit_offset" standardSettings.exitOffset,
     setting "exit_spacing" standardSettings.exitSpacing]
  toDatum c := .record
    [toDatum c.horizontalSpacing, toDatum c.verticalSpacing, toDatum c.nodeMargin,
     toDatum c.baseHeight, toDatum c.charsPerLine, toDatum c.lineHeight, toDatum c.choiceHeight,
     toDatum c.choicesPadding, toDatum c.exitOffset, toDatum c.exitSpacing]
  ofDatum
    | .record [horizontalSpacing, verticalSpacing, nodeMargin, baseHeight, charsPerLine, lineHeight,
        choiceHeight, choicesPadding, exitOffset, exitSpacing] =>
      return ⟨← ofDatum horizontalSpacing, ← ofDatum verticalSpacing, ← ofDatum nodeMargin,
        ← ofDatum baseHeight, ← ofDatum charsPerLine, ← ofDatum lineHeight,
        ← ofDatum choiceHeight, ← ofDatum choicesPadding, ← ofDatum exitOffset,
        ← ofDatum exitSpacing⟩
    | _ => none

def Mode.name : Mode → String
  | firstDiscovery => "FirstDiscovery"
  | compact => "Compact"

instance : Stored Mode where
  shape := namesShape ["FirstDiscovery", "Compact"]
  toDatum mode := .variant mode.name none
  ofDatum
    | .variant "FirstDiscovery" none => some .firstDiscovery
    | .variant "Compact" none => some .compact
    | _ => none

instance : Stored (Position Float) where
  shape := .record (.record "Position")
    [(.required "x", shapeOf Float), (.required "y", shapeOf Float)]
  toDatum p := .record [toDatum p.x, toDatum p.y]
  ofDatum
    | .record [x, y] => return ⟨← ofDatum x, ← ofDatum y⟩
    | _ => none

instance : Stored (Card Float) where
  shape := .record (.record "PlacedNode")
    [(.required "id", shapeOf String), (.required "depth", shapeOf Nat),
     (.required "height", shapeOf Float), (.required "position", shapeOf (Position Float))]
  toDatum c := .record [toDatum c.id, toDatum c.depth, toDatum c.height, toDatum c.position]
  ofDatum
    | .record [id, depth, height, position] =>
      return ⟨← ofDatum id, ← ofDatum depth, ← ofDatum height, ← ofDatum position⟩
    | _ => none

instance : Stored (ExitCard Float) where
  shape := .record (.record "PlacedExit")
    [(.required "id", shapeOf String), (.required "status", shapeOf String),
     (.required "position", shapeOf (Position Float))]
  toDatum c := .record [toDatum c.id, toDatum c.status, toDatum c.position]
  ofDatum
    | .record [id, status, position] =>
      return ⟨← ofDatum id, ← ofDatum status, ← ofDatum position⟩
    | _ => none

instance : Stored EdgeKind where
  shape := namesShape ["Choice", "Alternate", "Exit"]
  toDatum
    | .choice => .variant "Choice" none
    | .detour => .variant "Alternate" none
    | .exit => .variant "Exit" none
  ofDatum
    | .variant "Choice" none => some .choice
    | .variant "Alternate" none => some .detour
    | .variant "Exit" none => some .exit
    | _ => none

instance : Stored Edge where
  shape := .record (.record "LayoutEdge")
    [(.required "source", shapeOf String), (.required "target", shapeOf String),
     (.required "label", shapeOf String), (.required "kind", shapeOf EdgeKind),
     (.required "locked", shapeOf Bool)]
  toDatum e := .record
    [toDatum e.source, toDatum e.target, toDatum e.label, toDatum e.kind, toDatum e.locked]
  ofDatum
    | .record [source, target, label, kind, locked] =>
      return ⟨← ofDatum source, ← ofDatum target, ← ofDatum label, ← ofDatum kind,
        ← ofDatum locked⟩
    | _ => none

instance : Stored (Layout Float) where
  shape := .record (.record "Layout")
    [(.required "mode", shapeOf Mode), (.required "nodes", shapeOf (List (Card Float))),
     (.required "exits", shapeOf (List (ExitCard Float))),
     (.required "edges", shapeOf (List Edge))]
  toDatum l := .record [toDatum l.mode, toDatum l.nodes, toDatum l.exits, toDatum l.edges]
  ofDatum
    | .record [mode, nodes, exits, edges] =>
      return ⟨← ofDatum mode, ← ofDatum nodes, ← ofDatum exits, ← ofDatum edges⟩
    | _ => none

end Dialogue.Layout
