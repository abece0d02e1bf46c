import Dialogue.Markup.Span
import Dialogue.Proofs.Text.Search
import Mathlib.Data.List.Chain
/-!
# Reading spans back

Written out with their tags, the spans of a text are the text.  The other way round, spans that keep
clear of each other's tags are what is read from the text that they are written as.
-/

namespace Dialogue.Markup

/-! ## Tags -/

namespace Tag

def label : Tag → List Char
  | bold => ['b']
  | italic => ['i']
  | strikethrough => ['s']
  | color name => ['c', 'o', 'l', 'o', 'r', '='] ++ name.toList

theorem opening_eq (tag : Tag) : tag.opening = '[' :: (tag.label ++ [']']) := by
  cases tag <;> rfl

/-- The name of a color is not empty and goes up to the bracket that closes the tag. -/
def IsNamed : Tag → Prop
  | color name => name ≠ "" ∧ ']' ∉ name.toList
  | _ => True

theorem isNamed_iff {tag : Tag} : tag.IsNamed ↔ tag ≠ color "" ∧ ']' ∉ tag.label := by
  cases tag <;> simp [IsNamed, label]

theorem openingAt?_of_ne {c : Char} (h : c ≠ '[') (cs : List Char) : openingAt? (c :: cs) = none := by
  have hcolor : colorAt? (c :: cs) = none := by
    rw [colorAt?, colorOpening, Text.after?_cons_of_ne h]
  unfold openingAt?
  split <;> simp_all

theorem colorAt?_opening {name : String} (h : (color name).IsNamed) (rest : List Char) :
    colorAt? ((color name).opening ++ rest) = some (color name, rest) := by
  obtain ⟨hne, hbracket⟩ := h
  obtain ⟨c, cs, hname⟩ : ∃ c cs, name.toList = c :: cs :=
    List.exists_cons_of_ne_nil fun hnil => hne (String.toList_eq_nil_iff.1 hnil)
  have hback : String.ofList (c :: cs) = name := by rw [← hname, String.ofList_toList]
  have hstands : ¬ [']'] <:+: name.toList := by rwa [List.singleton_infix_iff]
  have hsplit := Text.splitAt?_of_not_isInfix List.not_mem_nil hstands rest
  rw [colorAt?, opening, List.append_assoc, List.append_assoc, Text.after?_append,
    ← List.append_assoc]
  simp only [hsplit]
  simp only [hname, hback]

theorem openingAt?_opening {tag : Tag} (h : tag.IsNamed) (rest : List Char) :
    openingAt? (tag.opening ++ rest) = some (tag, rest) := by
  cases tag with
  | bold => rfl
  | italic => rfl
  | strikethrough => rfl
  | color name => exact colorAt?_opening h rest

theorem isNamed_of_colorAt? {cs rest : List Char} {tag : Tag} (h : colorAt? cs = some (tag, rest)) :
    tag.IsNamed := by
  unfold colorAt? at h
  split at h
  next => cases h
  next =>
    split at h
    next => cases h
    next => cases h
    next c name rest' hsplit =>
      obtain ⟨rfl, -⟩ := Prod.mk.inj (Option.some.inj h)
      refine ⟨by simp, ?_⟩
      rw [String.toList_ofList]
      exact Text.notMem_of_splitAt?_singleton hsplit

theorem isNamed_of_openingAt? {cs rest : List Char} {tag : Tag}
    (h : openingAt? cs = some (tag, rest)) : tag.IsNamed := by
  unfold openingAt? at h
  split at h
  next => cases h; trivial
  next => cases h; trivial
  next => cases h; trivial
  next => exact isNamed_of_colorAt? h

theorem openingAt?_opening_iff {tag : Tag} {rest : List Char} :
    openingAt? (tag.opening ++ rest) = some (tag, rest) ↔ tag.IsNamed :=
  ⟨isNamed_of_openingAt?, fun h => openingAt?_opening h rest⟩

/-- A closing tag begins with a bracket that does not come again in it. -/
theorem exists_closing_eq (tag : Tag) : ∃ cs, tag.closing = '[' :: cs ∧ '[' ∉ cs := by
  cases tag <;> exact ⟨_, rfl, by decide⟩

theorem splitAt?_closing {tag : Tag} {content : List Char} (h : ¬ tag.closing <:+: content)
    (rest : List Char) :
    Text.splitAt? tag.closing (content ++ tag.closing ++ rest) = some (content, rest) := by
  obtain ⟨cs, hclosing, hbracket⟩ := tag.exists_closing_eq
  rw [hclosing] at h ⊢
  exact Text.splitAt?_of_not_isInfix hbracket h rest

end Tag

/-! ## Pieces -/

def Piece.written : Piece → List Char
  | .plain c => [c]
  | .styled tag content => tag.opening ++ content ++ tag.closing
  | .unclosed rest => rest

@[simp] theorem pieces_nil : pieces [] = [] := by rw [pieces]

theorem pieces_of_not_opening {c : Char} {cs : List Char} (h : Tag.openingAt? (c :: cs) = none) :
    pieces (c :: cs) = .plain c :: pieces cs := by
  rw [pieces]
  split
  next => rfl
  next heq => rw [h] at heq; cases heq

theorem pieces_of_closed {cs rest content rest' : List Char} {tag : Tag}
    (h : Tag.openingAt? cs = some (tag, rest))
    (h' : Text.splitAt? tag.closing rest = some (content, rest')) :
    pieces cs = .styled tag content :: pieces rest' := by
  cases cs with
  | nil => cases h
  | cons c cs =>
      rw [pieces]
      split
      next heq => rw [h] at heq; cases heq
      next heq =>
        rw [h] at heq
        cases heq
        split
        next heq' => rw [h'] at heq'; cases heq'
        next heq' => rw [h'] at heq'; cases heq'; rfl

theorem pieces_of_unclosed {cs rest : List Char} {tag : Tag}
    (h : Tag.openingAt? cs = some (tag, rest)) (h' : Text.splitAt? tag.closing rest = none) :
    pieces cs = [.unclosed cs] := by
  cases cs with
  | nil => cases h
  | cons c cs =>
      rw [pieces]
      split
      next heq => rw [h] at heq; cases heq
      next heq =>
        rw [h] at heq
        cases heq
        split
        next => rfl
        next heq' => rw [h'] at heq'; cases heq'

def Untagged (run behind : List Char) : Prop :=
  ∀ before rest, run = before ++ rest → rest ≠ [] → Tag.openingAt? (rest ++ behind) = none

theorem untagged_cons_iff {c : Char} {run behind : List Char} :
    Untagged (c :: run) behind ↔
      Tag.openingAt? (c :: (run ++ behind)) = none ∧ Untagged run behind := by
  constructor
  · intro h
    refine ⟨h [] (c :: run) rfl (List.cons_ne_nil c run), fun before rest hsplit => ?_⟩
    exact h (c :: before) rest (congrArg (c :: ·) hsplit)
  · rintro ⟨hnone, hrun⟩ before rest hsplit hne
    cases before with
    | nil =>
        obtain rfl : c :: run = rest := hsplit
        exact hnone
    | cons b before => exact hrun before rest (List.tail_eq_of_cons_eq hsplit) hne

theorem untagged_of_notMem {run : List Char} (h : '[' ∉ run) (behind : List Char) :
    Untagged run behind := by
  rintro before rest rfl hne
  obtain ⟨c, rest, rfl⟩ := List.exists_cons_of_ne_nil hne
  refine Tag.openingAt?_of_ne ?_ _
  rintro rfl
  exact h (List.mem_append_right before List.mem_cons_self)

/-- The characters of a run without an opening tag are pieces of their own. -/
theorem pieces_append_of_untagged {run behind : List Char} (h : Untagged run behind) :
    pieces (run ++ behind) = run.map .plain ++ pieces behind := by
  induction run with
  | nil => rfl
  | cons c run ih =>
      obtain ⟨hnone, hrun⟩ := untagged_cons_iff.1 h
      rw [List.cons_append, pieces_of_not_opening hnone, ih hrun]
      rfl

theorem pieces_append_of_notMem {xs : List Char} (h : '[' ∉ xs) (cs : List Char) :
    pieces (xs ++ cs) = xs.map .plain ++ pieces cs :=
  pieces_append_of_untagged (untagged_of_notMem h cs)

theorem flatMap_written_pieces (cs : List Char) : (pieces cs).flatMap Piece.written = cs := by
  fun_induction pieces cs with
  | case1 => rfl
  | case2 c cs h ih => rw [List.flatMap_cons, ih, Piece.written, List.singleton_append]
  | case3 c cs tag rest h h' => rw [List.flatMap_singleton, Piece.written]
  | case4 c cs tag rest h content rest' h' ih =>
      rw [List.flatMap_cons, ih, Piece.written, Tag.eq_append_of_openingAt? h,
        Text.splitAt?_append h']
      simp only [List.append_assoc]

theorem unclosed_ne_nil {cs rest : List Char} (h : .unclosed rest ∈ pieces cs) : rest ≠ [] := by
  fun_induction pieces cs with
  | case1 => exact absurd h List.not_mem_nil
  | case2 c cs _ ih => exact ih (by simpa using h)
  | case3 c cs _ _ _ _ =>
      cases List.mem_singleton.1 h
      exact List.cons_ne_nil c cs
  | case4 c cs _ _ _ _ _ _ ih => exact ih (by simpa using h)

/-! ## Spans -/

namespace Span

@[simp] theorem tags_plain (content : List Char) : (plain content).tags = [] := rfl

@[simp] theorem tags_styled (tag : Tag) (content : List Char) :
    (styled tag content).tags = [tag] := by
  cases tag <;> rfl

theorem isPlain_iff {s : Span} : s.isPlain = true ↔ s.tags = [] := by
  obtain ⟨content, bold, italic, strikethrough, color⟩ := s
  cases bold <;> cases italic <;> cases strikethrough <;> cases color <;> simp [isPlain, tags]

@[simp] theorem isPlain_styled (tag : Tag) (content : List Char) :
    (styled tag content).isPlain = false := by
  cases tag <;> rfl

theorem eq_plain_of_tags {s : Span} (h : s.tags = []) : s = plain s.content.toList := by
  obtain ⟨content, bold, italic, strikethrough, color⟩ := s
  cases bold <;> cases italic <;> cases strikethrough <;> cases color <;> simp_all [plain, tags]

/-- A span with one style is what is read between the tags of that style. -/
theorem eq_styled_of_tags {s : Span} {tag : Tag} (h : s.tags = [tag]) :
    s = styled tag s.content.toList := by
  obtain ⟨content, bold, italic, strikethrough, color⟩ := s
  cases bold <;> cases italic <;> cases strikethrough <;> cases color <;>
    simp only [tags, if_true, if_false, Bool.false_eq_true, Option.map_some, Option.map_none,
      Option.toList_some, Option.toList_none, List.append_nil, List.nil_append,
      List.cons_append, List.cons.injEq, reduceCtorEq, and_false, and_true] at h <;>
    subst h <;> simp [styled, plain]

@[simp] theorem markup_plain (content : List Char) : (plain content).markup = content := by
  simp [markup, plain, tags]

theorem markup_of_isPlain {s : Span} (h : s.isPlain = true) : s.markup = s.content.toList := by
  rw [isPlain_iff] at h
  rw [markup, h]

@[simp] theorem toList_content_plain (content : List Char) :
    (plain content).content.toList = content :=
  String.toList_ofList

theorem content_styled (tag : Tag) (content : List Char) :
    (styled tag content).content = String.ofList content := by
  cases tag <;> rfl

@[simp] theorem markup_styled (tag : Tag) (content : List Char) :
    (styled tag content).markup = tag.opening ++ content ++ tag.closing := by
  rw [markup, tags_styled, content_styled, String.toList_ofList]

structure IsProper (s : Span) : Prop where
  length_tags : s.tags.length ≤ 1
  content_ne : s.isPlain = true → s.content ≠ ""

theorem isProper_plain {content : List Char} (h : content ≠ []) : (plain content).IsProper where
  length_tags := by simp
  content_ne _ := by simpa [plain] using h

theorem isProper_styled (tag : Tag) (content : List Char) : (styled tag content).IsProper where
  length_tags := by simp
  content_ne hplain := by simp at hplain

end Span

theorem plainRun_of_ne_nil {run : List Char} (h : run ≠ []) : plainRun run = [.plain run] := by
  rw [plainRun, List.isEmpty_eq_false_iff.2 h, if_neg Bool.false_ne_true]

theorem flatMap_markup_plainRun (run : List Char) : (plainRun run).flatMap Span.markup = run := by
  by_cases h : run = []
  · rw [h]
    rfl
  · rw [plainRun_of_ne_nil h, List.flatMap_singleton, Span.markup_plain]

theorem mem_plainRun_iff {run : List Char} {s : Span} :
    s ∈ plainRun run ↔ run ≠ [] ∧ s = .plain run := by
  by_cases h : run = []
  · simp [plainRun, h]
  · simp [plainRun_of_ne_nil h, h]

theorem isProper_of_mem_plainRun {run : List Char} {s : Span} (h : s ∈ plainRun run) :
    s.IsProper := by
  obtain ⟨hrun, rfl⟩ := mem_plainRun_iff.1 h
  exact Span.isProper_plain hrun

theorem gather_append_plain (xs : List Char) (ps : List Piece) :
    gather (xs.map .plain ++ ps) = (xs ++ (gather ps).1, (gather ps).2) := by
  induction xs with
  | nil => rfl
  | cons x xs ih => rw [List.map_cons, List.cons_append, gather, ih]; rfl

/-- The spans of the pieces are written as the pieces were. -/
theorem flatMap_markup_gather (ps : List Piece) :
    (gather ps).1 ++ (gather ps).2.flatMap Span.markup = ps.flatMap Piece.written := by
  induction ps with
  | nil => rfl
  | cons piece ps ih =>
      cases piece with
      | plain c => simp [gather, Piece.written, ← ih]
      | styled tag content =>
          simp [gather, Piece.written, ← ih, flatMap_markup_plainRun]
      | unclosed rest => simp [gather, Piece.written, ← ih, flatMap_markup_plainRun]

theorem isProper_of_mem_gather {ps : List Piece}
    (h : ∀ rest, Piece.unclosed rest ∈ ps → rest ≠ []) : ∀ s ∈ (gather ps).2, s.IsProper := by
  induction ps with
  | nil => exact fun s hs => absurd hs List.not_mem_nil
  | cons piece ps ih =>
      have hrest := ih fun rest hmem => h rest (List.mem_cons_of_mem piece hmem)
      have hlater : ∀ s ∈ plainRun (gather ps).1 ++ (gather ps).2, s.IsProper := by
        intro s hs
        rcases List.mem_append.1 hs with hrun | hs
        · exact isProper_of_mem_plainRun hrun
        · exact hrest s hs
      cases piece with
      | plain c => exact hrest
      | styled tag content =>
          exact List.forall_mem_cons.2 ⟨Span.isProper_styled tag content, hlater⟩
      | unclosed rest =>
          have hne : rest ≠ [] := h rest List.mem_cons_self
          exact List.forall_mem_cons.2 ⟨Span.isProper_plain hne, hlater⟩

theorem flatMap_markup_spans (text : String) : (spans text).flatMap Span.markup = text.toList := by
  change (plainRun _ ++ _).flatMap Span.markup = text.toList
  rw [List.flatMap_append, flatMap_markup_plainRun, flatMap_markup_gather, flatMap_written_pieces]

theorem isProper_of_mem_spans {text : String} {s : Span} (h : s ∈ spans text) : s.IsProper := by
  rcases List.mem_append.1 h with hrun | hs
  · exact isProper_of_mem_plainRun hrun
  · exact isProper_of_mem_gather (fun _ => unclosed_ne_nil) s hs

/-! ## Spans that keep clear of each other's tags -/

/-- Nothing in the span can be taken for its own tags or for those of another span. -/
structure Span.IsClear (s : Span) : Prop where
  plain : s.isPlain = true → s.content ≠ "" ∧ '[' ∉ s.content.toList
  styled : s.isPlain = false →
    ∃ tag, s.tags = [tag] ∧ tag.IsNamed ∧ ¬ tag.closing <:+: s.content.toList

theorem Span.IsClear.of_plain {content : List Char} (hne : content ≠ []) (h : '[' ∉ content) :
    (Span.plain content).IsClear where
  plain _ := by simpa [Span.plain] using ⟨hne, h⟩
  styled hplain := by simp [Span.plain, isPlain] at hplain

theorem Span.IsClear.of_styled {tag : Tag} {content : List Char} (hnamed : tag.IsNamed)
    (h : ¬ tag.closing <:+: content) : (Span.styled tag content).IsClear where
  plain hplain := by simp at hplain
  styled _ := ⟨tag, tags_styled tag content, hnamed, by rwa [content_styled, String.toList_ofList]⟩

/-- No span can be taken for another, and no two plain spans stand side by side. -/
structure AreClear (ss : List Span) : Prop where
  each : ∀ s ∈ ss, s.IsClear
  apart : ss.IsChain fun s next => ¬ (s.isPlain = true ∧ next.isPlain = true)

theorem pieces_markup_styled {tag : Tag} {content : List Char} (hnamed : tag.IsNamed)
    (hclosing : ¬ tag.closing <:+: content) (rest : List Char) :
    pieces ((Span.styled tag content).markup ++ rest) = .styled tag content :: pieces rest := by
  rw [Span.markup_styled, List.append_assoc, List.append_assoc]
  refine pieces_of_closed (Tag.openingAt?_opening hnamed _) ?_
  rw [← List.append_assoc]
  exact Tag.splitAt?_closing hclosing rest

/-- What is read from the spans as they are written.  A run of plain characters in front is the first
span, which then is plain. -/
theorem gather_markup {ss : List Span} (h : AreClear ss) :
    plainRun (gather (pieces (ss.flatMap Span.markup))).1 ++
        (gather (pieces (ss.flatMap Span.markup))).2 = ss ∧
      ((gather (pieces (ss.flatMap Span.markup))).1 ≠ [] →
        ∃ s ∈ ss.head?, s.isPlain = true) := by
  induction ss with
  | nil => simp [gather, plainRun]
  | cons s ss ih =>
      obtain ⟨heach, hapart⟩ := h
      obtain ⟨hs, heach⟩ := List.forall_mem_cons.1 heach
      obtain ⟨hnext, hapart⟩ := List.isChain_cons.1 hapart
      obtain ⟨hread, hrun⟩ := ih ⟨heach, hapart⟩
      rw [List.flatMap_cons]
      cases hplain : s.isPlain with
      | true =>
          obtain ⟨hne, hbracket⟩ := hs.plain hplain
          have hs' : s = .plain s.content.toList := Span.eq_plain_of_tags (Span.isPlain_iff.1 hplain)
          -- the next span is not plain, so the run ends with this one
          have hend : (gather (pieces (ss.flatMap Span.markup))).1 = [] := by
            by_contra hmore
            obtain ⟨next, hmem, hnextPlain⟩ := hrun hmore
            exact hnext next hmem ⟨hplain, hnextPlain⟩
          rw [hend] at hread
          rw [Span.markup_of_isPlain hplain, pieces_append_of_notMem hbracket, gather_append_plain,
            hend, List.append_nil]
          refine ⟨?_, fun _ => ⟨s, rfl, hplain⟩⟩
          rw [plainRun_of_ne_nil fun hnil => hne (String.toList_eq_nil_iff.1 hnil), ← hs']
          exact congrArg (s :: ·) hread
      | false =>
          obtain ⟨tag, htags, hnamed, hclosing⟩ := hs.styled hplain
          have hs' : s = .styled tag s.content.toList := Span.eq_styled_of_tags htags
          have hpieces := pieces_markup_styled hnamed hclosing (ss.flatMap Span.markup)
          rw [← hs'] at hpieces
          rw [hpieces, gather]
          refine ⟨?_, fun hne => absurd rfl hne⟩
          rw [← hs']
          exact congrArg (s :: ·) hread

theorem spans_markup {ss : List Span} (h : AreClear ss) :
    spans (String.ofList (ss.flatMap Span.markup)) = ss := by
  rw [spans, String.toList_ofList]
  exact (gather_markup h).1

/-- Reading spans loses nothing: written out with their tags they are the text again, each has one
style at most, and none without style is empty.  And spans that keep clear of each other's tags are
exactly what is read from the text as which they are written. -/
theorem spans_lossless_exact :
    (∀ text, String.ofList ((spans text).flatMap Span.markup) = text ∧
        ∀ s ∈ spans text, s.tags.length ≤ 1 ∧ (s.isPlain = true → s.content ≠ "")) ∧
      ∀ ss, AreClear ss → spans (String.ofList (ss.flatMap Span.markup)) = ss := by
  refine ⟨fun text => ⟨?_, fun s hs => ?_⟩, fun ss h => spans_markup h⟩
  · rw [flatMap_markup_spans, String.ofList_toList]
  · have hproper := isProper_of_mem_spans hs
    exact ⟨hproper.length_tags, hproper.content_ne⟩

def notice : List Span :=
  [.styled .italic [], .plain "You owe ".toList, .styled .bold "12 [i]gold[/b".toList,
   .styled (.color "[b") "to her".toList, .plain ".]".toList]

theorem spans_exact_at_notice :
    AreClear notice ∧
      notice.flatMap Span.markup =
        "[i][/i]You owe [b]12 [i]gold[/b[/b][color=[b]to her[/color].]".toList ∧
      spans (String.ofList (notice.flatMap Span.markup)) = notice := by
  have h : AreClear notice :=
    { each := by
        simp only [notice, List.forall_mem_cons]
        exact ⟨.of_styled trivial (by decide), .of_plain (by decide) (by decide),
          .of_styled trivial (by decide),
          .of_styled ⟨by decide, by decide⟩ (by decide),
          .of_plain (by decide) (by decide), List.forall_mem_nil _⟩
      apart := by decide }
  exact ⟨h, by decide, spans_lossless_exact.2 notice h⟩

end Dialogue.Markup
