import Dialogue.Story.Tree
/-!
# Portraits

Which picture of a speaker is shown with a line.
-/

namespace Dialogue

/-- The portrait that stands in for those that a character lacks. -/
def standInEmotion : String := "default"

/-- The portrait of a character with an emotion: the emotion's own, else that of the default emotion,
else the fallback, else the character's stand-in. -/
def Character.portrait (c : Character) (emotion fallback : Option String) : Option String :=
  (emotion.bind c.portraits.get?)
    <|> c.portraits.get? c.defaultEmotion
    <|> fallback
    <|> c.portraits.get? standInEmotion

/-- The portrait of the character with an id. Of a character who is not in the tree there is only the
fallback. -/
def Tree.portrait (t : Tree) (character : String) (emotion fallback : Option String) :
    Option String :=
  match t.character? character with
  | none => fallback
  | some c => c.portrait emotion fallback

end Dialogue
