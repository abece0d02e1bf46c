import Dialogue.Markup.Span
import Dialogue.Shape.Stored
/-!
# The stored form of tags and spans
-/

namespace Dialogue.Markup

instance : Stored Tag where
  shape := .choice
    [("Bold", none), ("Italic", none), ("Strikethrough", none), ("Color", some (shapeOf String))]
  toDatum
    | .bold => .variant "Bold" none
    | .italic => .variant "Italic" none
    | .strikethrough => .variant "Strikethrough" none
    | .color name => .variant "Color" (some (toDatum name))
  ofDatum
    | .variant "Bold" none => some .bold
    | .variant "Italic" none => some .italic
    | .variant "Strikethrough" none => some .strikethrough
    | .variant "Color" (some d) => (ofDatum d).map Tag.color
    | _ => none

instance : Stored Span where
  shape := .record (.record "Span")
    [(.required "content", shapeOf String), (.required "bold", shapeOf Bool),
     (.required "italic", shapeOf Bool), (.required "strikethrough", shapeOf Bool),
     (.nullable "color", shapeOf (Option String))]
  toDatum s := .record
    [toDatum s.content, toDatum s.bold, toDatum s.italic, toDatum s.strikethrough, toDatum s.color]
  ofDatum
    | .record [content, bold, italic, strikethrough, color] =>
      return ⟨← ofDatum content, ← ofDatum bold, ← ofDatum italic, ← ofDatum strikethrough,
        ← ofDatum color⟩
    | _ => none

end Dialogue.Markup
