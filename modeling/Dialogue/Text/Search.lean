/-!
# Searching in characters

Splitting a list of characters at the first place where a pattern stands.
-/

namespace Dialogue.Text

/-- What is left of `cs` after the characters of `start`, if it begins with them. -/
def after? : List Char → List Char → Option (List Char)
  | [], cs => some cs
  | _ :: _, [] => none
  | p :: ps, c :: cs => if p = c then after? ps cs else none

/-- The part of the characters before the first occurrence of `pattern`, and the part after it. -/
def splitAt? (pattern : List Char) : List Char → Option (List Char × List Char)
  | [] => (after? pattern []).map fun rest => ([], rest)
  | c :: cs =>
    match after? pattern (c :: cs) with
    | some rest => some ([], rest)
    | none => (splitAt? pattern cs).map fun parts => (c :: parts.1, parts.2)

theorem after?_eq_some {start cs rest : List Char} :
    after? start cs = some rest ↔ cs = start ++ rest := by
  induction start generalizing cs with
  | nil => simp [after?, eq_comm]
  | cons p ps ih =>
    cases cs with
    | nil => simp [after?]
    | cons c cs =>
      by_cases h : p = c
      · subst h; simp [after?, ih]
      · simp [after?, h, Ne.symm h]

/-- The two parts and the pattern between them make up the whole. -/
theorem splitAt?_append {pattern cs before behind : List Char}
    (h : splitAt? pattern cs = some (before, behind)) : cs = before ++ pattern ++ behind := by
  induction cs generalizing before with
  | nil =>
    obtain ⟨rest, hrest, heq⟩ := Option.map_eq_some_iff.1 h
    simp only [Prod.mk.injEq] at heq
    obtain ⟨rfl, rfl⟩ := heq
    simpa using after?_eq_some.1 hrest
  | cons c cs ih =>
    unfold splitAt? at h
    split at h
    next rest hrest =>
      simp only [Option.some.injEq, Prod.mk.injEq] at h
      obtain ⟨rfl, rfl⟩ := h
      simpa using after?_eq_some.1 hrest
    next =>
      obtain ⟨parts, hparts, heq⟩ := Option.map_eq_some_iff.1 h
      simp only [Prod.mk.injEq] at heq
      obtain ⟨rfl, rfl⟩ := heq
      simp [ih hparts]

/-- Nothing is left of a non-empty pattern's place: what follows it is shorter than the whole. -/
theorem length_lt_of_splitAt? {pattern cs before behind : List Char} (hp : pattern ≠ [])
    (h : splitAt? pattern cs = some (before, behind)) : behind.length < cs.length := by
  have hpos := List.length_pos_iff.2 hp
  rw [splitAt?_append h]
  simp only [List.length_append]
  omega

end Dialogue.Text
