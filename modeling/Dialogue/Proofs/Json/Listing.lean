import Dialogue.Proofs.Json.Quoted
import Dialogue.Proofs.Json.Reads
/-!
# Lists and objects read back

The items of a list and the members of an object are written in the same way: one after the other,
each on a line of its own or not, with a comma in front of all but the first.  `listed` is that way
of writing, and the readers of lists and objects follow it.
-/

namespace Dialogue.Json

/-! ## Items one after the other -/

def lead (first : Bool) (lineBreak : List Char) : List Char :=
  if first then lineBreak else ',' :: lineBreak

def listed (lineBreak : List Char) : Bool → List (List Char) → List Char
  | _, [] => []
  | first, item :: items => lead first lineBreak ++ (item ++ listed lineBreak false items)

def memberChars (spacing : Spacing) (level : Nat) (member : String × Json) : List Char :=
  quoted member.1 ++ ':' :: (spacing.afterColon ++ chars spacing level member.2)

theorem memberChars_ne_nil (spacing : Spacing) (level : Nat) (member : String × Json) :
    memberChars spacing level member ≠ [] :=
  List.append_ne_nil_of_left_ne_nil (List.cons_ne_nil _ _) _

theorem itemsChars_eq_listed (spacing : Spacing) (level : Nat) (items : List Json) :
    itemsChars spacing level items =
      listed (spacing.lineBreak level) false (items.map (chars spacing level)) := by
  induction items with
  | nil => rfl
  | cons item items ih => simp [itemsChars, listed, lead, ih]

theorem membersChars_eq_listed (spacing : Spacing) (level : Nat)
    (members : List (String × Json)) :
    membersChars spacing level members =
      listed (spacing.lineBreak level) false (members.map (memberChars spacing level)) := by
  induction members with
  | nil => rfl
  | cons member members ih => simp [membersChars, listed, lead, memberChars, ih]

theorem head?_array (spacing : Spacing) (level : Nat) (items : List Json) :
    (chars spacing level (.array items)).head? = some '[' := by
  cases items <;> simp [chars]

theorem head?_object (spacing : Spacing) (level : Nat) (members : List (String × Json)) :
    (chars spacing level (.object members)).head? = some '{' := by
  cases members <;> simp [chars]

section

variable {spacing : Spacing} (hspacing : spacing.IsBlank)

include hspacing

theorem exists_chars_array (level : Nat) (items : List Json) :
    ∃ close, IsBlank close ∧ chars spacing level (.array items) =
      '[' :: (listed (spacing.lineBreak (level + 1)) true
        (items.map (chars spacing (level + 1))) ++ (close ++ [']'])) := by
  cases items with
  | nil => exact ⟨[], isBlank_nil, rfl⟩
  | cons item items =>
      refine ⟨spacing.lineBreak level, hspacing.lineBreak level, ?_⟩
      simp [chars, itemsChars_eq_listed, listed, lead]

theorem exists_chars_object (level : Nat) (members : List (String × Json)) :
    ∃ close, IsBlank close ∧ chars spacing level (.object members) =
      '{' :: (listed (spacing.lineBreak (level + 1)) true
        (members.map (memberChars spacing (level + 1))) ++ (close ++ ['}'])) := by
  cases members with
  | nil => exact ⟨[], isBlank_nil, rfl⟩
  | cons member members =>
      refine ⟨spacing.lineBreak level, hspacing.lineBreak level, ?_⟩
      simp [chars, membersChars_eq_listed, listed, lead, memberChars]

end

/-- Each item takes a character at least, and so does the closing mark. -/
theorem length_lt_listed {α : Type} {text : α → List Char} {items : List α}
    (h : ∀ x ∈ items, text x ≠ []) (lineBreak close : List Char) (first : Bool) (mark : Char)
    (rest : List Char) :
    items.length < (listed lineBreak first (items.map text) ++ (close ++ mark :: rest)).length := by
  induction items generalizing first with
  | nil =>
      simp only [List.length_nil, List.length_append, List.length_cons]
      omega
  | cons x items ih =>
      have hx := List.length_pos_iff.2 (h x List.mem_cons_self)
      have hrest := ih (fun y hy => h y (List.mem_cons_of_mem _ hy)) false
      simp only [List.map_cons, listed, List.length_cons, List.length_append] at hrest ⊢
      omega

theorem ends_listed (lineBreak : List Char) (texts : List (List Char)) {close : List Char}
    (hclose : IsBlank close) {mark : Char} (hmark : mark ∈ [']', '}']) (rest : List Char) :
    Ends (listed lineBreak false texts ++ (close ++ mark :: rest)) := by
  cases texts with
  | nil => exact ends_append hclose (ends_cons (.inr (List.mem_cons_of_mem _ hmark)) rest)
  | cons text texts => exact ends_cons (.inr List.mem_cons_self) _

/-! ## Steps of the readers -/

section

variable {lineBreak close : List Char}

theorem skipGaps_lead (h : IsBlank lineBreak) {text : List Char} (htext : Begins text) :
    skipGaps (lineBreak ++ text) = text := by
  rw [skipGaps_append h, htext.skipGaps_eq]

theorem skipGaps_comma (cs : List Char) : skipGaps (',' :: cs) = ',' :: cs := skipGaps_cons rfl cs

theorem nextElement_lead (h : IsBlank lineBreak) (first : Bool) {text : List Char}
    (htext : Begins text) : nextElement first (lead first lineBreak ++ text) = .ok (some text) := by
  have hskip := skipGaps_lead h htext
  obtain ⟨c, cs, rfl, -, hclose⟩ := htext
  cases first with
  | true => simp [lead, nextElement, hskip, hclose]
  | false => simp [lead, nextElement, skipGaps_comma, hskip, hclose]

theorem skipGaps_close (h : IsBlank close) {mark : Char} (hmark : mark ∈ [']', '}'])
    (rest : List Char) : skipGaps (close ++ mark :: rest) = mark :: rest := by
  rw [skipGaps_append h, skipGaps_cons]
  simp only [List.mem_cons, List.not_mem_nil, or_false] at hmark
  rcases hmark with rfl | rfl <;> rfl

theorem nextElement_close (h : IsBlank close) (first : Bool) (rest : List Char) :
    nextElement first (close ++ ']' :: rest) = .ok none := by
  simp [nextElement, skipGaps_close h]

theorem closeList_close (h : IsBlank close) (rest : List Char) :
    closeList (close ++ ']' :: rest) = .ok rest := by
  simp [closeList, skipGaps_close h]

theorem begins_quoted (s : String) (rest : List Char) : Begins (quoted s ++ rest) :=
  begins_cons rfl (by decide) _

theorem quotedText_quoted (s : String) (rest : List Char) :
    ∃ cs, quoted s ++ rest = '"' :: cs ∧ quotedText cs = .ok (s, rest) := by
  refine ⟨s.toList.flatMap escape ++ '"' :: rest, ?_, quotedText_escaped s rest⟩
  simp [quoted]

theorem key_quoted (s : String) (rest : List Char) : key (quoted s ++ rest) = .ok (s, rest) := by
  obtain ⟨cs, hcs, hread⟩ := quotedText_quoted s rest
  rw [hcs, key, if_pos rfl, hread]

theorem nextKey_lead (h : IsBlank lineBreak) (first : Bool) (name : String) (rest : List Char) :
    nextKey first (lead first lineBreak ++ (quoted name ++ rest)) = .ok (some (name, rest)) := by
  have hskip := skipGaps_lead h (begins_quoted name rest)
  have hkey := key_quoted name rest
  obtain ⟨cs, hcs, -⟩ := quotedText_quoted name rest
  rw [hcs] at hskip hkey ⊢
  cases first with
  | true => simp [lead, nextKey, hskip, hkey, Except.map]
  | false => simp [lead, nextKey, skipGaps_comma, hskip, hkey, Except.map]

/-- The key of a member is found, and what stands behind it goes on with the colon. -/
theorem nextKey_member (h : IsBlank lineBreak) {spacing : Spacing} {level : Nat} (first : Bool)
    (member : String × Json) (rest : List Char) :
    nextKey first (lead first lineBreak ++ (memberChars spacing level member ++ rest)) =
      .ok (some (member.1,
        ':' :: (spacing.afterColon ++ (chars spacing level member.2 ++ rest)))) := by
  rw [memberChars, List.append_assoc, nextKey_lead h]
  simp only [List.cons_append, List.append_assoc]

theorem nextKey_close (h : IsBlank close) (first : Bool) (rest : List Char) :
    nextKey first (close ++ '}' :: rest) = .ok none := by
  simp [nextKey, skipGaps_close h]

theorem closeObject_close (h : IsBlank close) (rest : List Char) :
    closeObject (close ++ '}' :: rest) = .ok rest := by
  simp [closeObject, skipGaps_close h]

theorem colon_cons (rest : List Char) : colon (':' :: rest) = .ok rest := by
  rw [colon, skipGaps_cons rfl]
  rfl

end

/-! ## Whole lists and objects -/

section

variable {α : Type} {lineBreak close : List Char} (hlead : IsBlank lineBreak)
  (hclose : IsBlank close)

include hlead hclose

theorem elements_listed {element : Scan α} {text : α → List Char} {items : List α}
    (h : ∀ x ∈ items, Reads element (text x) x) {clock : List Char}
    (hclock : items.length < clock.length) (first : Bool) (rest : List Char) :
    elements element clock first
        (listed lineBreak first (items.map text) ++ (close ++ ']' :: rest)) =
      .ok (items, rest) := by
  -- Behind the first item `first` is false for good.
  induction items generalizing clock first with
  | nil =>
      obtain ⟨tick, clock, rfl⟩ := List.exists_cons_of_length_pos hclock
      simp only [List.map_nil, listed, List.nil_append, elements, nextElement_close hclose,
        closeList_close hclose, bind, Except.bind, pure, Except.pure]
  | cons x items ih =>
      obtain ⟨tick, clock, rfl⟩ := List.exists_cons_of_length_pos (Nat.zero_lt_of_lt hclock)
      have hx := h x List.mem_cons_self
      have hnext := nextElement_lead hlead first
        (hx.begins.append (listed lineBreak false (items.map text) ++ (close ++ ']' :: rest)))
      have hends := ends_listed lineBreak (items.map text) hclose
        (List.mem_cons_self : ']' ∈ [']', '}']) rest
      have hrest := ih (fun y hy => h y (List.mem_cons_of_mem _ hy))
        (Nat.lt_of_succ_lt_succ hclock) false
      simp only [List.map_cons, listed, List.append_assoc, elements, hnext, hx.scan_append hends,
        hrest, bind, Except.bind, pure, Except.pure]

theorem members_listed {spacing : Spacing} (hspacing : spacing.IsBlank) {level : Nat}
    {value : Scan α} {json : α → Json} {entries : List (String × α)}
    (h : ∀ entry ∈ entries, Reads value (chars spacing level (json entry.2)) entry.2)
    {clock : List Char} (hclock : entries.length < clock.length) (first : Bool)
    (rest : List Char) :
    members value clock first
        (listed lineBreak first (entries.map fun entry =>
          memberChars spacing level (entry.1, json entry.2)) ++ (close ++ '}' :: rest)) =
      .ok (entries, rest) := by
  induction entries generalizing clock first with
  | nil =>
      obtain ⟨tick, clock, rfl⟩ := List.exists_cons_of_length_pos hclock
      simp only [List.map_nil, listed, List.nil_append, members, nextKey_close hclose,
        closeObject_close hclose, bind, Except.bind, pure, Except.pure]
  | cons entry entries ih =>
      obtain ⟨tick, clock, rfl⟩ := List.exists_cons_of_length_pos (Nat.zero_lt_of_lt hclock)
      have hends := ends_listed lineBreak
        (entries.map fun entry => memberChars spacing level (entry.1, json entry.2)) hclose
        (List.mem_cons_of_mem _ List.mem_cons_self : '}' ∈ [']', '}']) rest
      have hvalue := (h entry List.mem_cons_self).scan_blank hspacing.afterColon hends
      have hrest := ih (fun other hother => h other (List.mem_cons_of_mem _ hother))
        (Nat.lt_of_succ_lt_succ hclock) false
      simp only [List.map_cons, listed, List.append_assoc, members, nextKey_member hlead,
        colon_cons, hvalue, hrest, bind, Except.bind, pure, Except.pure]

end

end Dialogue.Json
