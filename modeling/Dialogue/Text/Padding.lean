/-!
# Padding

Text brought to a least width by spaces on one side. The width counts characters.
-/

namespace Dialogue.Text

/-- The text with spaces after it up to the width. -/
def padEnd (width : Nat) (s : String) : String :=
  s ++ String.ofList (List.replicate (width - s.length) ' ')

/-- The text with spaces before it up to the width. -/
def padStart (width : Nat) (s : String) : String :=
  String.ofList (List.replicate (width - s.length) ' ') ++ s

end Dialogue.Text
