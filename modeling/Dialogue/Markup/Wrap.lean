import Dialogue.Markup.Tag
/-!
# Wrapping a selection

Puts a selected range of characters between the tags of a style.
-/

namespace Dialogue.Markup

/-- The text with the characters from `start` to before `stop` between the tags, and where the
cursor goes, both counted in characters. Bounds beyond the text are drawn in, and a start behind the
stop is drawn back to it. The cursor goes between the tags of an empty selection, and else behind the
closing tag. -/
def wrap (text : String) (start stop : Nat) (tag : Tag) : String × Nat :=
  let cs := text.toList
  let stop := min stop cs.length
  let start := min start stop
  let wrapped :=
    cs.take start ++ tag.opening ++ (cs.take stop).drop start ++ tag.closing ++ cs.drop stop
  let cursor :=
    if start = stop then start + tag.opening.length
    else stop + tag.opening.length + tag.closing.length
  (String.ofList wrapped, cursor)

end Dialogue.Markup
