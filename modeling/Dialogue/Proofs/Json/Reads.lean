import Dialogue.Json.Printer
import Dialogue.Json.Scan
/-!
# Reading a value back from its text

A value is read back from its own text whatever white space stands in front of it, and whatever
stands behind it that can follow a value.  `Reads` says so of one scan, one text and one value.
-/

namespace Dialogue.Json

/-! ## White space -/

def IsBlank (gap : List Char) : Prop := ∀ c ∈ gap, isGap c = true

theorem isBlank_nil : IsBlank [] := by simp [IsBlank]

theorem skipGaps_append {gap : List Char} (h : IsBlank gap) (cs : List Char) :
    skipGaps (gap ++ cs) = skipGaps cs :=
  List.dropWhile_append_of_pos h

theorem skipGaps_cons {c : Char} (h : isGap c = false) (cs : List Char) :
    skipGaps (c :: cs) = c :: cs :=
  List.dropWhile_cons_of_neg (by simp [h])

structure Spacing.IsBlank (spacing : Spacing) : Prop where
  lineBreak : ∀ level, Json.IsBlank (spacing.lineBreak level)
  afterColon : Json.IsBlank spacing.afterColon

theorem Spacing.isBlank_compact : Spacing.compact.IsBlank :=
  ⟨fun _ => isBlank_nil, isBlank_nil⟩

theorem Spacing.isBlank_pretty : Spacing.pretty.IsBlank where
  lineBreak level c hc := by
    rcases List.mem_cons.1 hc with rfl | hc
    · rfl
    · rw [(List.mem_replicate.1 hc).2]
      rfl
  afterColon c hc := by
    rw [List.mem_singleton.1 hc]
    rfl

/-! ## Texts of values -/

/-- The characters can stand behind a value: there are none, or they go on with white space or with
a mark that ends the value. -/
def Ends (rest : List Char) : Prop := ∀ c ∈ rest.head?, isGap c = true ∨ c ∈ [',', ']', '}']

theorem ends_nil : Ends [] := by simp [Ends]

theorem ends_cons {c : Char} (h : isGap c = true ∨ c ∈ [',', ']', '}']) (cs : List Char) :
    Ends (c :: cs) := by
  intro d hd
  rw [← Option.some.inj hd]
  exact h

theorem ends_append {gap : List Char} (h : IsBlank gap) {rest : List Char} (hrest : Ends rest) :
    Ends (gap ++ rest) := by
  cases gap with
  | nil => exact hrest
  | cons c gap => exact ends_cons (.inl (h c List.mem_cons_self)) (gap ++ rest)

def Begins (text : List Char) : Prop := ∃ c cs, text = c :: cs ∧ isGap c = false ∧ c ≠ ']'

theorem begins_cons {c : Char} (hgap : isGap c = false) (hclose : c ≠ ']') (cs : List Char) :
    Begins (c :: cs) :=
  ⟨c, cs, rfl, hgap, hclose⟩

theorem Begins.append {text : List Char} (h : Begins text) (rest : List Char) :
    Begins (text ++ rest) := by
  obtain ⟨c, cs, rfl, hgap, hclose⟩ := h
  exact begins_cons hgap hclose (cs ++ rest)

theorem Begins.ne_nil {text : List Char} (h : Begins text) : text ≠ [] := by
  obtain ⟨c, cs, rfl, -⟩ := h
  exact List.cons_ne_nil c cs

theorem Begins.skipGaps_eq {text : List Char} (h : Begins text) : skipGaps text = text := by
  obtain ⟨c, cs, rfl, hgap, -⟩ := h
  exact skipGaps_cons hgap cs

/-- The scan finds a value at its text and leaves what stands behind. -/
structure Reads {α : Type} (scan : Scan α) (text : List Char) (x : α) : Prop where
  begins : Begins text
  scan_eq : ∀ {cs rest : List Char}, skipGaps cs = text ++ rest → Ends rest →
    scan cs = .ok (x, rest)

theorem Reads.scan_append {α : Type} {scan : Scan α} {text : List Char} {x : α}
    (h : Reads scan text x) {rest : List Char} (hrest : Ends rest) :
    scan (text ++ rest) = .ok (x, rest) :=
  h.scan_eq (h.begins.append rest).skipGaps_eq hrest

theorem Reads.scan_blank {α : Type} {scan : Scan α} {text : List Char} {x : α}
    (h : Reads scan text x) {gap : List Char} (hgap : IsBlank gap) {rest : List Char}
    (hrest : Ends rest) : scan (gap ++ (text ++ rest)) = .ok (x, rest) := by
  refine h.scan_eq ?_ hrest
  rw [skipGaps_append hgap, (h.begins.append rest).skipGaps_eq]

theorem readAll_of_reads {α : Type} {scan : Scan α} {s : String} {x : α}
    (h : Reads scan s.toList x) : readAll scan s = .ok x := by
  have hscan := h.scan_append ends_nil
  rw [List.append_nil] at hscan
  rw [readAll, scanAll, hscan]
  rfl

end Dialogue.Json
