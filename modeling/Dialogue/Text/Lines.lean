/-!
# Lines

The lines of a text. A line ends before a line feed, or before a carriage return and a line feed;
what follows the last line feed is a line if it is not empty.
-/

namespace Dialogue.Text

/-- The lines of characters, without what ends them. -/
def linesOf : List Char → List (List Char)
  | [] => []
  | '\n' :: cs => [] :: linesOf cs
  | '\r' :: '\n' :: cs => [] :: linesOf cs
  | c :: cs =>
    match linesOf cs with
    | [] => [[c]]
    | line :: rest => (c :: line) :: rest

def lines (s : String) : List String := (linesOf s.toList).map String.ofList

end Dialogue.Text
