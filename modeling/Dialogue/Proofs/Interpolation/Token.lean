import Dialogue.Interpolation
import Dialogue.Proofs.Text.Decimal
import Dialogue.Proofs.Text.Search
import Mathlib.Data.List.TakeWhile
/-!
# Tokens

What a token is, apart from how it is scanned for (`token?_eq_some_iff`), and how a text is filled in
piece by piece: a text is empty, or begins with a token, or begins with a character of its own.
-/

namespace Dialogue.Interpolation

variable {c : Char} {cs body rest : List Char} {counters : Counters}

def IsBody (body : List Char) : Prop := body ≠ [] ∧ '}' ∉ body

def Piece.written : Piece → List Char
  | .plain c => [c]
  | .token body => '{' :: '$' :: '$' :: (body ++ ['}'])

theorem takeWhile_body (h : '}' ∉ body) (rest : List Char) :
    (body ++ '}' :: rest).takeWhile (· ≠ '}') = body := by
  have hall : ∀ c ∈ body, decide (c ≠ '}') = true :=
    fun c hc => decide_eq_true fun heq => h (heq ▸ hc)
  rw [List.takeWhile_append_of_pos hall, List.takeWhile_cons_of_neg (by simp), List.append_nil]

theorem dropWhile_body (h : '}' ∉ body) (rest : List Char) :
    (body ++ '}' :: rest).dropWhile (· ≠ '}') = '}' :: rest := by
  have hall : ∀ c ∈ body, decide (c ≠ '}') = true :=
    fun c hc => decide_eq_true fun heq => h (heq ▸ hc)
  rw [List.dropWhile_append_of_pos hall, List.dropWhile_cons_of_neg (by simp)]

theorem token?_eq_some_iff :
    token? cs = some (body, rest) ↔ IsBody body ∧ cs = (Piece.token body).written ++ rest := by
  constructor
  · intro h
    unfold token? at h
    split at h
    next cs =>
      have hparts := List.takeWhile_append_dropWhile (p := (· ≠ '}')) (l := cs)
      split at h
      next => cases h
      next => cases h
      next c body d rest htake hdrop =>
        obtain ⟨rfl, rfl⟩ := Prod.mk.inj (Option.some.inj h)
        -- taking stopped at a brace
        have hend : d = '}' := by
          have hhead := List.head?_dropWhile_not (· ≠ '}') cs
          rw [hdrop] at hhead
          simpa using hhead
        have hfree : '}' ∉ c :: body := fun hmem => by
          have hne := List.mem_takeWhile_imp (htake ▸ hmem)
          simp at hne
        refine ⟨⟨List.cons_ne_nil c body, hfree⟩, ?_⟩
        rw [htake, hdrop, hend] at hparts
        simp [Piece.written, ← hparts]
    next => cases h
  · rintro ⟨⟨hne, hfree⟩, rfl⟩
    obtain ⟨c, body, rfl⟩ := List.exists_cons_of_ne_nil hne
    have happend : (Piece.token (c :: body)).written ++ rest =
        '{' :: '$' :: '$' :: (c :: body ++ '}' :: rest) := by simp [Piece.written]
    rw [happend, token?, takeWhile_body hfree, dropWhile_body hfree]

theorem token?_of_ne (h : c ≠ '{') (cs : List Char) : token? (c :: cs) = none := by
  rw [Option.eq_none_iff_forall_ne_some]
  rintro ⟨body, rest⟩ hsome
  obtain ⟨-, heq⟩ := token?_eq_some_iff.1 hsome
  exact h (List.head_eq_of_cons_eq heq)

/-- What follows can complete a token, but never undo one. -/
theorem token?_eq_none_of_append {more : List Char} (h : token? (cs ++ more) = none) :
    token? cs = none := by
  rw [Option.eq_none_iff_forall_ne_some]
  rintro ⟨body, rest⟩ hsome
  obtain ⟨hbody, rfl⟩ := token?_eq_some_iff.1 hsome
  rw [List.append_assoc, token?_eq_some_iff.2 ⟨hbody, rfl⟩] at h
  cases h

/-! ## Pieces -/

@[simp] theorem pieces_nil : pieces [] = [] := by rw [pieces]

theorem pieces_token (h : IsBody body) (rest : List Char) :
    pieces ((Piece.token body).written ++ rest) = .token body :: pieces rest := by
  have htoken : token? ((Piece.token body).written ++ rest) = some (body, rest) :=
    token?_eq_some_iff.2 ⟨h, rfl⟩
  rw [Piece.written, List.cons_append] at htoken ⊢
  rw [pieces]
  split
  next heq => rw [htoken] at heq; cases heq; rfl
  next heq => rw [htoken] at heq; cases heq

theorem pieces_plain (h : token? (c :: cs) = none) : pieces (c :: cs) = .plain c :: pieces cs := by
  rw [pieces]
  split
  next heq => rw [h] at heq; cases heq
  next => rfl

theorem text_cases (cs : List Char) :
    cs = [] ∨ (∃ body rest, IsBody body ∧ cs = (Piece.token body).written ++ rest) ∨
      ∃ c rest, token? (c :: rest) = none ∧ cs = c :: rest := by
  cases cs with
  | nil => exact .inl rfl
  | cons c cs =>
      cases htoken : token? (c :: cs) with
      | none => exact .inr (.inr ⟨c, cs, htoken, rfl⟩)
      | some parts => exact .inr (.inl ⟨parts.1, parts.2, token?_eq_some_iff.1 htoken⟩)

theorem length_lt_of_written (body rest : List Char) :
    rest.length < ((Piece.token body).written ++ rest).length := by
  simp only [Piece.written, List.cons_append, List.length_cons, List.length_append]
  omega

/-- What holds of the empty text, and goes on to a token and to a character in front, holds of every
text. -/
theorem text_induction {motive : List Char → Prop} (nil : motive [])
    (token : ∀ {body rest}, IsBody body → motive rest →
      motive ((Piece.token body).written ++ rest))
    (plain : ∀ {c rest}, token? (c :: rest) = none → motive rest → motive (c :: rest))
    (cs : List Char) : motive cs := by
  induction hlength : cs.length using Nat.strong_induction_on generalizing cs with
  | _ n ih =>
      obtain rfl | ⟨body, rest, hbody, rfl⟩ | ⟨c, rest, htoken, rfl⟩ := text_cases cs
      · exact nil
      · exact token hbody (ih _ (hlength ▸ length_lt_of_written body rest) rest rfl)
      · exact plain htoken (ih _ (hlength ▸ Nat.lt_succ_self _) rest rfl)

/-! ## Filling in -/

def fill (counters : Counters) (cs : List Char) : List Char :=
  (pieces cs).flatMap (Piece.shown counters)

theorem substitute_eq (text : String) (counters : Counters) :
    substitute text counters = String.ofList (fill counters text.toList) := rfl

@[simp] theorem fill_nil : fill counters [] = [] := by rw [fill, pieces_nil, List.flatMap_nil]

theorem fill_token (h : IsBody body) (rest : List Char) :
    fill counters ((Piece.token body).written ++ rest) =
      shown counters (nameOf body) ++ fill counters rest := by
  rw [fill, pieces_token h, List.flatMap_cons]
  rfl

theorem fill_plain (h : token? (c :: cs) = none) :
    fill counters (c :: cs) = c :: fill counters cs := by
  rw [fill, pieces_plain h, List.flatMap_cons]
  rfl

/-- A counter is shown in digits with a sign, or as missing. -/
theorem of_mem_shown {name : String} (h : c ∈ shown counters name) :
    c.isDigit = true ∨ c = '-' ∨ c ∈ missingValue.toList := by
  unfold shown at h
  split at h
  · rw [← or_assoc]
    exact .inl (Text.isDigit_or_minus_of_mem_toString h)
  · exact .inr (.inr h)

theorem shown_ne_nil (counters : Counters) (name : String) : shown counters name ≠ [] := by
  unfold shown
  split
  · exact Text.toList_toString_ne_nil _
  · decide

theorem fill_eq_nil_iff : fill counters cs = [] ↔ cs = [] := by
  obtain rfl | ⟨body, rest, hbody, rfl⟩ | ⟨c, rest, htoken, rfl⟩ := text_cases cs
  · simp
  · rw [fill_token hbody]
    simp [shown_ne_nil, Piece.written]
  · rw [fill_plain htoken]
    simp

/-! ## Searching in a filled text -/

/-- The character neither opens a token nor is shown for a counter. -/
def IsInert (c : Char) : Prop :=
  c ≠ '{' ∧ c ≠ '-' ∧ c.isDigit = false ∧ c ∉ missingValue.toList

instance (c : Char) : Decidable (IsInert c) := inferInstanceAs (Decidable (_ ∧ _))

theorem IsInert.notMem_shown (h : IsInert c) (counters : Counters) (name : String) :
    c ∉ shown counters name := by
  obtain ⟨-, hminus, hdigit, hmissing⟩ := h
  intro hmem
  rcases of_mem_shown hmem with hdigit' | hminus' | hmissing'
  · rw [hdigit] at hdigit'
    cases hdigit'
  · exact hminus hminus'
  · exact hmissing hmissing'

/-- A filled text begins with inert characters exactly if the text does. -/
theorem after?_fill (counters : Counters) {pattern : List Char} (h : ∀ c ∈ pattern, IsInert c)
    (cs : List Char) :
    Text.after? pattern (fill counters cs) = (Text.after? pattern cs).map (fill counters) := by
  induction pattern generalizing cs with
  | nil => rfl
  | cons p ps ih =>
      obtain ⟨hp, hps⟩ := List.forall_mem_cons.1 h
      obtain rfl | ⟨body, rest, hbody, rfl⟩ | ⟨c, rest, htoken, rfl⟩ := text_cases cs
      · rw [fill_nil]
        rfl
      · -- neither the token nor what is shown for it begins with an inert character
        obtain ⟨d, ds, hshown⟩ :=
          List.exists_cons_of_ne_nil (shown_ne_nil counters (nameOf body))
        have hd : d ≠ p := by
          rintro rfl
          exact hp.notMem_shown counters (nameOf body) (hshown ▸ List.mem_cons_self)
        rw [fill_token hbody, hshown, List.cons_append, Text.after?_cons_of_ne hd, Piece.written,
          List.cons_append, Text.after?_cons_of_ne (Ne.symm hp.1)]
        rfl
      · rw [fill_plain htoken]
        by_cases hc : p = c
        · rw [Text.after?, if_pos hc, Text.after?, if_pos hc, ih hps]
        · rw [Text.after?_cons_of_ne (Ne.symm hc), Text.after?_cons_of_ne (Ne.symm hc)]
          rfl

end Dialogue.Interpolation
