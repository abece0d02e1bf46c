import Dialogue.Proofs.Interpolation.Token
import Dialogue.Proofs.Markup.Reading
/-!
# Filling in before and after reading spans

What is shown for a counter has no character that tags are made of.  So if no token of a text has a
bracket in it, tokens and tags keep out of each other's way, and it is the same whether tokens are
filled in before the spans are read or in each span afterwards.
-/

namespace Dialogue

open Interpolation

namespace Interpolation

variable {counters : Counters} {c p : Char} {cs ps : List Char}

def Piece.body? : Piece → Option (List Char)
  | .plain _ => none
  | .token body => some body

def FreeOfBrackets (cs : List Char) : Prop :=
  ∀ body ∈ (pieces cs).filterMap Piece.body?, '[' ∉ body ∧ ']' ∉ body

instance (cs : List Char) : Decidable (FreeOfBrackets cs) :=
  inferInstanceAs (Decidable (∀ body ∈ _, _))

namespace FreeOfBrackets

variable {body rest : List Char}

theorem of_token (h : FreeOfBrackets ((Piece.token body).written ++ rest)) (hbody : IsBody body) :
    ('[' ∉ body ∧ ']' ∉ body) ∧ FreeOfBrackets rest := by
  rw [FreeOfBrackets, pieces_token hbody, List.filterMap_cons] at h
  exact List.forall_mem_cons.1 h

theorem of_plain (h : FreeOfBrackets (c :: cs)) (hc : token? (c :: cs) = none) :
    FreeOfBrackets cs := by
  rwa [FreeOfBrackets, pieces_plain hc, List.filterMap_cons] at h

theorem notMem_written (h : FreeOfBrackets ((Piece.token body).written ++ rest))
    (hbody : IsBody body) {b : Char} (hb : b = '[' ∨ b = ']') :
    b ∉ (Piece.token body).written := by
  obtain ⟨hopen, hclose⟩ := (h.of_token hbody).1
  rcases hb with rfl | rfl <;> simp [Piece.written, hopen, hclose]

/-- Behind a bracket a text goes on as if it began there, for the bracket belongs to no token. -/
theorem of_append_bracket {b : Char} (hb : b = '[' ∨ b = ']') {xs ys : List Char}
    (h : FreeOfBrackets (xs ++ b :: ys)) : FreeOfBrackets ys := by
  -- by the length of what stands in front, from which a token takes several characters at once
  induction hlength : xs.length using Nat.strong_induction_on generalizing xs with
  | _ n ih =>
      obtain hnil | ⟨body, rest, hbody, heq⟩ | ⟨c, rest, htoken, heq⟩ := text_cases (xs ++ b :: ys)
      · simp at hnil
      · rw [heq] at h
        have hb' := h.notMem_written hbody hb
        rcases List.append_eq_append_iff.1 heq with ⟨tail, hwritten, hrest⟩ | ⟨xs', rfl, hrest⟩
        · cases tail with
          | nil =>
              rw [List.nil_append] at hrest
              have hrest' : FreeOfBrackets ([] ++ b :: ys) := hrest ▸ (h.of_token hbody).2
              refine ih 0 ?_ hrest' rfl
              rw [List.append_nil] at hwritten
              rw [← hlength, ← hwritten]
              exact List.length_pos_iff.2 (List.cons_ne_nil _ _)
          | cons d tail =>
              -- the bracket would stand in the token
              obtain rfl : b = d := List.head_eq_of_cons_eq hrest
              exact absurd (hwritten ▸ List.mem_append_right xs List.mem_cons_self) hb'
        · exact ih _ (hlength ▸ length_lt_of_written body xs') (hrest ▸ (h.of_token hbody).2) rfl
      · cases xs with
        | nil =>
            obtain ⟨rfl, rfl⟩ := List.cons.inj heq
            exact h.of_plain htoken
        | cons x xs =>
            rw [List.cons_append] at h heq
            rw [← heq] at htoken
            exact ih _ (hlength ▸ Nat.lt_succ_self _) (h.of_plain htoken) rfl

theorem of_append {xs : List Char} (hxs : '{' ∉ xs) (h : FreeOfBrackets (xs ++ cs)) :
    FreeOfBrackets cs := by
  induction xs with
  | nil => exact h
  | cons x xs ih =>
      obtain ⟨hne, hxs⟩ := not_or.1 (mt List.mem_cons.2 hxs)
      rw [List.cons_append] at h
      exact ih hxs (h.of_plain (token?_of_ne (Ne.symm hne) _))

end FreeOfBrackets

/-! ## Splitting a filled text -/

theorem fill_cons_of_append {xs more : List Char} (h : token? (c :: (xs ++ more)) = none) :
    fill counters (c :: xs) = c :: fill counters xs :=
  fill_plain (token?_eq_none_of_append (by rwa [List.cons_append]))

/-- A filled text is split at the place where the text is, if no token runs over a pattern that
begins with a bracket. -/
theorem splitAt?_fill (counters : Counters) (hp : p = '[' ∨ p = ']')
    (h : ∀ c ∈ p :: ps, IsInert c) (hfree : FreeOfBrackets cs) :
    Text.splitAt? (p :: ps) (fill counters cs) =
      (Text.splitAt? (p :: ps) cs).map (Prod.map (fill counters) (fill counters)) := by
  induction cs using text_induction with
  | nil =>
      rw [fill_nil]
      rfl
  | @token body rest hbody ih =>
      have hshown := (h p List.mem_cons_self).notMem_shown counters (nameOf body)
      rw [fill_token hbody, Text.splitAt?_append_of_notMem hshown, ih (hfree.of_token hbody).2,
        Text.splitAt?_append_of_notMem (hfree.notMem_written hbody hp), Option.map_map,
        Option.map_map]
      congr 1
      funext ⟨before, behind⟩
      simp [fill_token hbody]
  | @plain c rest htoken ih =>
      have hafter := after?_fill counters h (c :: rest)
      rw [fill_plain htoken] at hafter ⊢
      cases hc : Text.after? (p :: ps) (c :: rest) with
      | some behind =>
          rw [hc] at hafter
          rw [Text.splitAt?_of_after? hafter, Text.splitAt?_of_after? hc]
          simp
      | none =>
          rw [hc] at hafter
          rw [Text.splitAt?_of_after?_eq_none hafter, Text.splitAt?_of_after?_eq_none hc,
            ih (hfree.of_plain htoken)]
          cases hsplit : Text.splitAt? (p :: ps) rest with
          | none => rfl
          | some parts =>
              obtain ⟨before, behind⟩ := parts
              -- no token begins here in the whole text, so none does in the part before the pattern
              rw [Text.splitAt?_append hsplit, List.append_assoc] at htoken
              simp [fill_cons_of_append htoken]

end Interpolation

namespace Markup

/-! ## Tags -/

namespace Tag

def filled (counters : Counters) : Tag → Tag
  | color name => color (substitute name counters)
  | tag => tag

variable {counters : Counters} {cs : List Char}

@[simp] theorem closing_filled (tag : Tag) : (tag.filled counters).closing = tag.closing := by
  cases tag <;> rfl

/-- The characters that tags are made of, apart from the names of colors. -/
def characters : List Char := ['[', ']', '/', 'b', 'i', 's', 'c', 'o', 'l', 'r', '=']

theorem isInert_of_subset {pattern : List Char} (h : pattern ⊆ characters) :
    ∀ c ∈ pattern, IsInert c := by
  have hall : characters.all (fun c => decide (IsInert c)) = true := by decide
  exact fun c hc => of_decide_eq_true (List.all_eq_true.1 hall c (h hc))

theorem closing_subset (tag : Tag) : tag.closing ⊆ characters := by
  cases tag <;> simp [closing, characters]

theorem opening_subset {tag : Tag} (h : ∀ name, tag ≠ color name) : tag.opening ⊆ characters := by
  cases tag with
  | color name => exact absurd rfl (h name)
  | _ => simp [opening, characters]

theorem colorOpening_subset : colorOpening ⊆ characters := by
  simp [colorOpening, characters]

theorem exists_opening_eq (tag : Tag) : ∃ cs, tag.opening = cs ++ [']'] :=
  ⟨'[' :: tag.label, tag.opening_eq⟩

theorem exists_closing_eq_append (tag : Tag) : ∃ cs, tag.closing = cs ++ [']'] := by
  cases tag with
  | bold => exact ⟨['[', '/', 'b'], rfl⟩
  | italic => exact ⟨['[', '/', 'i'], rfl⟩
  | strikethrough => exact ⟨['[', '/', 's'], rfl⟩
  | color name => exact ⟨['[', '/', 'c', 'o', 'l', 'o', 'r'], rfl⟩

theorem freeOfBrackets_of_opening {tag : Tag} {rest : List Char}
    (h : FreeOfBrackets (tag.opening ++ rest)) : FreeOfBrackets rest := by
  obtain ⟨start, hopening⟩ := tag.exists_opening_eq
  rw [hopening, List.append_assoc, List.singleton_append] at h
  exact h.of_append_bracket (.inr rfl)

theorem freeOfBrackets_of_closing {tag : Tag} {content rest : List Char}
    (h : FreeOfBrackets (content ++ tag.closing ++ rest)) : FreeOfBrackets rest := by
  obtain ⟨start, hclosing⟩ := tag.exists_closing_eq_append
  rw [hclosing, ← List.append_assoc, List.append_assoc, List.singleton_append] at h
  exact h.of_append_bracket (.inr rfl)

theorem length_lt_of_closed {tag : Tag} {rest content rest' : List Char}
    (h : openingAt? cs = some (tag, rest))
    (h' : Text.splitAt? tag.closing rest = some (content, rest')) : rest'.length < cs.length := by
  rw [eq_append_of_openingAt? h, List.length_append]
  exact Nat.lt_add_left _ (Text.length_lt_of_splitAt? tag.closing_ne_nil h')

theorem splitAt?_closing_fill (counters : Counters) (tag : Tag) (h : FreeOfBrackets cs) :
    Text.splitAt? (tag.filled counters).closing (fill counters cs) =
      (Text.splitAt? tag.closing cs).map (Prod.map (fill counters) (fill counters)) := by
  rw [closing_filled]
  obtain ⟨chars, hclosing, -⟩ := tag.exists_closing_eq
  have hinert := isInert_of_subset tag.closing_subset
  rw [hclosing] at hinert ⊢
  exact splitAt?_fill counters (.inl rfl) hinert h

theorem openingAt?_eq (cs : List Char) :
    openingAt? cs =
      ((Text.after? bold.opening cs).map (bold, ·)).or
        (((Text.after? italic.opening cs).map (italic, ·)).or
          (((Text.after? strikethrough.opening cs).map (strikethrough, ·)).or (colorAt? cs))) := by
  have hnone : ∀ {start : List Char}, (∀ rest, cs = start ++ rest → False) →
      Text.after? start cs = none := fun h =>
    Option.eq_none_iff_forall_ne_some.2 fun rest hrest => h rest (Text.after?_eq_some.1 hrest)
  unfold openingAt?
  split
  next => rfl
  next => rfl
  next => rfl
  next cs hbold hitalic hstrike =>
    rw [hnone hbold, hnone hitalic, hnone hstrike]
    rfl

theorem colorAt?_fill (counters : Counters) (h : FreeOfBrackets cs) :
    colorAt? (fill counters cs) =
      (colorAt? cs).map (Prod.map (filled counters) (fill counters)) := by
  rw [colorAt?, colorAt?, after?_fill counters (isInert_of_subset colorOpening_subset)]
  cases hafter : Text.after? colorOpening cs with
  | none => rfl
  | some rest =>
      rw [Text.after?_eq_some.1 hafter] at h
      have hrest : FreeOfBrackets rest := h.of_append (by decide)
      simp only [Option.map_some]
      have hinert : ∀ c ∈ [']'], IsInert c := isInert_of_subset (by simp [characters])
      rw [splitAt?_fill counters (.inr rfl) hinert hrest]
      cases hsplit : Text.splitAt? [']'] rest with
      | none => rfl
      | some parts =>
          obtain ⟨name, behind⟩ := parts
          cases name with
          | nil => simp
          | cons c name =>
              -- a name that is not empty does not become empty
              obtain ⟨d, ds, hfill⟩ : ∃ d ds, fill counters (c :: name) = d :: ds :=
                List.exists_cons_of_ne_nil (mt fill_eq_nil_iff.1 (List.cons_ne_nil c name))
              simp [hfill, filled, substitute_eq]

theorem openingAt?_fill (counters : Counters) (h : FreeOfBrackets cs) :
    openingAt? (fill counters cs) =
      (openingAt? cs).map (Prod.map (filled counters) (fill counters)) := by
  have hfixed : ∀ {tag : Tag}, (∀ name, tag ≠ color name) →
      Text.after? tag.opening (fill counters cs) =
        (Text.after? tag.opening cs).map (fill counters) :=
    fun htag => after?_fill counters (isInert_of_subset (opening_subset htag)) cs
  rw [openingAt?_eq, openingAt?_eq, colorAt?_fill counters h, hfixed (by simp), hfixed (by simp),
    hfixed (by simp)]
  simp only [Option.map_or, Option.map_map]
  rfl

end Tag

/-! ## Spans -/

namespace Span

def filled (counters : Counters) (s : Span) : Span :=
  { s with content := substitute s.content counters, color := s.color.map (substitute · counters) }

variable {counters : Counters}

@[simp] theorem filled_plain (content : List Char) :
    (plain content).filled counters = plain (fill counters content) := by
  simp [filled, plain, substitute_eq]

@[simp] theorem filled_styled (tag : Tag) (content : List Char) :
    (styled tag content).filled counters =
      styled (tag.filled counters) (fill counters content) := by
  cases tag <;> simp [filled, styled, plain, substitute_eq, Tag.filled]

theorem tags_filled (s : Span) : (s.filled counters).tags = s.tags.map (Tag.filled counters) := by
  obtain ⟨content, bold, italic, strikethrough, color⟩ := s
  cases bold <;> cases italic <;> cases strikethrough <;> cases color <;> rfl

end Span

variable {counters : Counters} {cs : List Char}

theorem plainRun_fill (run : List Char) :
    plainRun (fill counters run) = (plainRun run).map (Span.filled counters) := by
  by_cases h : run = []
  · rw [h, fill_nil]
    rfl
  · rw [plainRun_of_ne_nil h, plainRun_of_ne_nil (mt fill_eq_nil_iff.1 h), List.map_singleton,
      Span.filled_plain]

theorem gather_fst_prefix (cs : List Char) : (gather (pieces cs)).1 <+: cs := by
  fun_induction pieces cs with
  | case1 => exact List.nil_prefix
  | case2 c cs _ ih => exact (List.prefix_cons_inj c).2 ih
  | case3 => exact List.nil_prefix
  | case4 => exact List.nil_prefix

theorem gather_fill (counters : Counters) (h : FreeOfBrackets cs) :
    gather (pieces (fill counters cs)) =
      (gather (pieces cs)).map (fill counters) (List.map (Span.filled counters)) := by
  -- by the length, for a token and a tag each take several characters at once
  induction hlength : cs.length using Nat.strong_induction_on generalizing cs with
  | _ n ih =>
      obtain rfl | ⟨body, rest, hbody, rfl⟩ | ⟨c, rest, htoken, rfl⟩ := text_cases cs
      · simp [gather]
      · -- neither the token nor what is shown for it has a bracket
        have hbracket : IsInert '[' := by decide
        have hrest := ih _ (hlength ▸ length_lt_of_written body rest) (h.of_token hbody).2 rfl
        rw [fill_token hbody, pieces_append_of_notMem (hbracket.notMem_shown _ _),
          pieces_append_of_notMem (h.notMem_written hbody (.inl rfl)), gather_append_plain,
          gather_append_plain, hrest]
        simp [fill_token hbody]
      · have hopening := Tag.openingAt?_fill counters h
        rw [fill_plain htoken] at hopening ⊢
        cases hc : Tag.openingAt? (c :: rest) with
        | none =>
            rw [hc] at hopening
            have hrest := ih _ (hlength ▸ Nat.lt_succ_self _) (h.of_plain htoken) rfl
            -- no token begins here in the whole text, so none does in the run of plain characters
            obtain ⟨more, hmore⟩ := gather_fst_prefix rest
            rw [← hmore] at htoken
            rw [pieces_of_not_opening hopening, pieces_of_not_opening hc, gather, gather, hrest]
            simp [fill_cons_of_append htoken]
        | some parts =>
            obtain ⟨tag, behind⟩ := parts
            rw [hc] at hopening
            have hbehind : FreeOfBrackets behind :=
              Tag.freeOfBrackets_of_opening (Tag.eq_append_of_openingAt? hc ▸ h)
            have hclosing := Tag.splitAt?_closing_fill counters tag hbehind
            cases hsplit : Text.splitAt? tag.closing behind with
            | none =>
                rw [hsplit] at hclosing
                rw [pieces_of_unclosed hopening hclosing, pieces_of_unclosed hc hsplit]
                simp [gather, plainRun, fill_plain htoken]
            | some parts =>
                obtain ⟨content, rest'⟩ := parts
                rw [hsplit] at hclosing
                have hrest' : FreeOfBrackets rest' :=
                  Tag.freeOfBrackets_of_closing (Text.splitAt?_append hsplit ▸ hbehind)
                have hlt := Tag.length_lt_of_closed hc hsplit
                rw [pieces_of_closed hopening hclosing, pieces_of_closed hc hsplit, gather, gather,
                  ih _ (hlength ▸ hlt) hrest' rfl]
                simp [plainRun_fill]

/-- If no token of a text has a bracket in it, it is the same whether the counters are filled in
before its spans are read or in each span afterwards.  So no value, and no missing value, opens or
closes a tag or undoes one. -/
theorem spans_substitute {text : String} (h : FreeOfBrackets text.toList) (counters : Counters) :
    spans (substitute text counters) = (spans text).map (Span.filled counters) ∧
      (spans (substitute text counters)).map (fun s => s.tags.map Tag.closing) =
        (spans text).map (fun s => s.tags.map Tag.closing) := by
  have hspans : spans (substitute text counters) = (spans text).map (Span.filled counters) := by
    rw [substitute_eq, spans, spans, String.toList_ofList, gather_fill counters h]
    simp [plainRun_fill]
  refine ⟨hspans, ?_⟩
  rw [hspans, List.map_map]
  refine List.map_congr_left fun s _ => ?_
  simp [Span.tags_filled, Function.comp_def]

/-- A text with a token in a tag's content, one in the name of a color, one beside a bracket that opens
no tag, and one behind a tag that is never closed. -/
def ledger : String :=
  "[b]\x7b$$gold\x7d coins[/b], [color=c\x7b$$ hue \x7d]dear[/color] " ++
    "[\x7b$$rank\x7db] [i]\x7b$$rank\x7d"

theorem spans_substitute_at_ledger :
    let counters : Counters := .ofList [("gold", 12), ("hue", -3)]
    FreeOfBrackets ledger.toList ∧
      spans (substitute ledger counters) = (spans ledger).map (Span.filled counters) ∧
      spans (substitute ledger counters) =
        [.styled .bold "12 coins".toList, .plain ", ".toList,
          .styled (.color "c-3") "dear".toList, .plain " [VALUE_NOT_FOUNDb] ".toList,
          .plain "[i]VALUE_NOT_FOUND".toList] := by
  intro counters
  have h : FreeOfBrackets ledger.toList := by decide +kernel
  exact ⟨h, (spans_substitute h counters).1, by decide +kernel⟩

end Markup

end Dialogue
