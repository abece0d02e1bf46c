import Dialogue.Markup.Tag
/-!
# Spans

A text with tags is shown as spans of one style each. Tags do not nest: an opening tag claims
everything up to the next closing tag of its kind. An opening tag that is never closed stays plain
text, together with all that follows it. Whatever is no opening tag is plain text too.
-/

namespace Dialogue.Markup

/-- A run of text with its styles. -/
structure Span where
  content : String
  bold : Bool
  italic : Bool
  strikethrough : Bool
  color : Option String
  deriving DecidableEq, Inhabited, Repr

namespace Span

/-- Text without style. -/
def plain (content : List Char) : Span := ⟨String.ofList content, false, false, false, none⟩

def styled (tag : Tag) (content : List Char) : Span :=
  match tag with
  | .bold => { plain content with bold := true }
  | .italic => { plain content with italic := true }
  | .strikethrough => { plain content with strikethrough := true }
  | .color name => { plain content with color := some name }

def isPlain (s : Span) : Bool := !s.bold && !s.italic && !s.strikethrough && s.color.isNone

def tags (s : Span) : List Tag :=
  (if s.bold then [.bold] else []) ++ (if s.italic then [.italic] else []) ++
    (if s.strikethrough then [.strikethrough] else []) ++ (s.color.map Tag.color).toList

/-- The markup of a span: its text, between the tags of its style if it has one. -/
def markup (s : Span) : List Char :=
  match s.tags with
  | [] => s.content.toList
  | tag :: _ => tag.opening ++ s.content.toList ++ tag.closing

end Span

/-- A piece of a text with tags. -/
inductive Piece where
  | plain (c : Char)
  | styled (tag : Tag) (content : List Char)
  /-- An opening tag that is never closed, and all that follows it. -/
  | unclosed (rest : List Char)
  deriving DecidableEq, Repr

/-- The pieces of a text, from the left. -/
def pieces (cs : List Char) : List Piece :=
  match cs with
  | [] => []
  | c :: cs =>
    match _h : Tag.openingAt? (c :: cs) with
    | none => .plain c :: pieces cs
    | some (tag, rest) =>
      match _h' : Text.splitAt? tag.closing rest with
      | none => [.unclosed (c :: cs)]
      | some (content, rest') => .styled tag content :: pieces rest'
termination_by cs.length
decreasing_by
  · simp
  · have hopen := congrArg List.length (Tag.eq_append_of_openingAt? ‹_›)
    have hclose := Text.length_lt_of_splitAt? tag.closing_ne_nil ‹_›
    simp only [List.length_cons, List.length_append] at hopen ⊢
    omega

/-- The span of a run of plain characters, if there are any. -/
def plainRun (run : List Char) : List Span :=
  if run.isEmpty then [] else [.plain run]

/-- The plain characters that the pieces begin with, and the spans of the pieces behind them. An
unclosed rest is a span of its own. -/
def gather : List Piece → List Char × List Span
  | [] => ([], [])
  | .plain c :: rest =>
    let (run, spans) := gather rest
    (c :: run, spans)
  | .styled tag content :: rest =>
    let (run, spans) := gather rest
    ([], .styled tag content :: plainRun run ++ spans)
  | .unclosed cs :: rest =>
    let (run, spans) := gather rest
    ([], .plain cs :: plainRun run ++ spans)

/-- The spans of a text: plain characters that stand side by side make up one span. -/
def spans (text : String) : List Span :=
  let (run, spans) := gather (pieces text.toList)
  plainRun run ++ spans

/-- The text of the spans without their styles. -/
def plainText (spans : List Span) : String := String.join (spans.map (·.content))

end Dialogue.Markup
