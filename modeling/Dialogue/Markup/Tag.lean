import Dialogue.Text.Search
/-!
# Style tags

The tags that style a run of text: `[b]`, `[i]`, `[s]` and `[color=NAME]`, each with its closing
tag.
-/

namespace Dialogue.Markup

/-- A style. -/
inductive Tag where
  | bold
  | italic
  | strikethrough
  | color (name : String)
  deriving DecidableEq, Inhabited, Repr

namespace Tag

/-- What opens a color tag, up to the name. -/
def colorOpening : List Char := ['[', 'c', 'o', 'l', 'o', 'r', '=']

def opening : Tag → List Char
  | bold => ['[', 'b', ']']
  | italic => ['[', 'i', ']']
  | strikethrough => ['[', 's', ']']
  | color name => colorOpening ++ name.toList ++ [']']

def closing : Tag → List Char
  | bold => ['[', '/', 'b', ']']
  | italic => ['[', '/', 'i', ']']
  | strikethrough => ['[', '/', 's', ']']
  | color _ => ['[', '/', 'c', 'o', 'l', 'o', 'r', ']']

/-- The color tag at the start of the characters: its name is not empty and goes up to the next
closing bracket. -/
def colorAt? (cs : List Char) : Option (Tag × List Char) :=
  match Text.after? colorOpening cs with
  | none => none
  | some rest =>
    match Text.splitAt? [']'] rest with
    | none | some ([], _) => none
    | some (c :: name, rest) => some (color (String.ofList (c :: name)), rest)

/-- The opening tag at the start of the characters, and the characters after it. -/
def openingAt? (cs : List Char) : Option (Tag × List Char) :=
  match cs with
  | '[' :: 'b' :: ']' :: rest => some (bold, rest)
  | '[' :: 'i' :: ']' :: rest => some (italic, rest)
  | '[' :: 's' :: ']' :: rest => some (strikethrough, rest)
  | cs => colorAt? cs

theorem closing_ne_nil (tag : Tag) : tag.closing ≠ [] := by
  cases tag <;> simp [closing]

theorem eq_append_of_colorAt? {cs rest : List Char} {tag : Tag} (h : colorAt? cs = some (tag, rest)) :
    cs = tag.opening ++ rest := by
  unfold colorAt? at h
  split at h
  · simp at h
  next rest' hafter =>
    split at h
    · simp at h
    · simp at h
    next c name rest'' hsplit =>
      simp only [Option.some.injEq, Prod.mk.injEq] at h
      obtain ⟨rfl, rfl⟩ := h
      rw [Text.after?_eq_some.1 hafter, Text.splitAt?_append hsplit]
      simp [opening]

/-- What is recognised at the start is the tag's opening. -/
theorem eq_append_of_openingAt? {cs rest : List Char} {tag : Tag}
    (h : openingAt? cs = some (tag, rest)) : cs = tag.opening ++ rest := by
  unfold openingAt? at h
  split at h
  all_goals first
    | exact eq_append_of_colorAt? h
    | (simp only [Option.some.injEq, Prod.mk.injEq] at h
       obtain ⟨rfl, rfl⟩ := h
       rfl)

end Tag

end Dialogue.Markup
