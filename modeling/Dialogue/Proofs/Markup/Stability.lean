import Dialogue.Proofs.Markup.Reading
/-!
# Spans by themselves

Whether a bracket opens a tag depends on what follows it: the name of a color goes up to the next
closing bracket, wherever that stands.  Cutting a text between its spans keeps each of these decisions
all the same.  An opening tag is one whatever follows it (`Tag.openingAt?_append`), so a run without a
tag has none by itself either, and each span is read again from its own markup.
-/

namespace Dialogue.Markup

variable {cs run behind content : List Char} {ss : List Span} {tag : Tag}

/-- What follows can complete an opening tag, but never undo one. -/
theorem Tag.openingAt?_append {rest : List Char} (h : openingAt? cs = some (tag, rest))
    (more : List Char) : openingAt? (cs ++ more) = some (tag, rest ++ more) := by
  rw [eq_append_of_openingAt? h, List.append_assoc]
  exact openingAt?_opening (isNamed_of_openingAt? h) (rest ++ more)

theorem Untagged.alone (h : Untagged run behind) : Untagged run [] := by
  intro before rest hsplit hne
  rw [Option.eq_none_iff_forall_ne_some]
  rintro ⟨tag, rest'⟩ hopening
  rw [List.append_nil] at hopening
  have hnone := h before rest hsplit hne
  rw [Tag.openingAt?_append hopening behind] at hnone
  cases hnone

def IsUnclosed (cs : List Char) : Prop :=
  ∃ tag rest, Tag.openingAt? cs = some (tag, rest) ∧ ¬ tag.closing <:+: rest

theorem IsUnclosed.not_untagged (h : IsUnclosed cs) : ¬ Untagged cs behind := by
  obtain ⟨tag, rest, hopening, -⟩ := h
  have hne : cs ≠ [] := by
    rintro rfl
    cases hopening
  intro huntagged
  have hnone := huntagged.alone [] cs rfl hne
  rw [List.append_nil, hopening] at hnone
  cases hnone

/-! ## One span -/

theorem spans_run (hne : run ≠ []) (h : Untagged run []) :
    spans (String.ofList run) = [.plain run] := by
  have hpieces := pieces_append_of_untagged h
  rw [List.append_nil, pieces_nil] at hpieces
  have hgather : gather (pieces run) = (run, []) := by
    rw [hpieces, gather_append_plain, gather, List.append_nil]
  rw [spans, String.toList_ofList, hgather]
  change plainRun run ++ [] = [.plain run]
  rw [List.append_nil, plainRun_of_ne_nil hne]

theorem spans_unclosed (h : IsUnclosed cs) : spans (String.ofList cs) = [.plain cs] := by
  obtain ⟨tag, rest, hopening, hclosing⟩ := h
  rw [spans, String.toList_ofList,
    pieces_of_unclosed hopening (Text.splitAt?_eq_none_iff.2 hclosing)]
  rfl

theorem spans_styled (hnamed : tag.IsNamed) (hcontent : ¬ tag.closing <:+: content) :
    spans (String.ofList (Span.styled tag content).markup) = [.styled tag content] := by
  have hclear : AreClear [.styled tag content] :=
    { each := List.forall_mem_singleton.2 (Span.IsClear.of_styled hnamed hcontent)
      apart := List.isChain_singleton _ }
  have hspans := spans_markup hclear
  rwa [List.flatMap_singleton] at hspans

/-! ## The spans of a text -/

/-- How a text is read that is empty or begins with an opening tag. -/
inductive Tagged : List Char → List Span → Prop where
  | nil : Tagged [] []
  | unclosed {cs : List Char} (h : IsUnclosed cs) : Tagged cs [.plain cs]
  | styled {tag : Tag} {content run behind : List Char} {ss : List Span} (hnamed : tag.IsNamed)
      (hcontent : ¬ tag.closing <:+: content) (hrun : Untagged run behind)
      (hbehind : Tagged behind ss) :
      Tagged (tag.opening ++ content ++ tag.closing ++ (run ++ behind))
        (.styled tag content :: (plainRun run ++ ss))

/-- A text is read as a run without a tag, and what begins with its first tag. -/
theorem exists_tagged (cs : List Char) :
    ∃ behind, cs = (gather (pieces cs)).1 ++ behind ∧ Untagged (gather (pieces cs)).1 behind ∧
      Tagged behind (gather (pieces cs)).2 := by
  fun_induction pieces cs with
  | case1 => exact ⟨[], rfl, untagged_of_notMem List.not_mem_nil [], .nil⟩
  | case2 c cs hopening ih =>
      obtain ⟨behind, hcs, hrun, hbehind⟩ := ih
      refine ⟨behind, congrArg (c :: ·) hcs, untagged_cons_iff.2 ⟨?_, hrun⟩, hbehind⟩
      rwa [← hcs]
  | case3 c cs tag rest hopening hclosing =>
      have hunclosed : IsUnclosed (c :: cs) :=
        ⟨tag, rest, hopening, Text.splitAt?_eq_none_iff.1 hclosing⟩
      exact ⟨c :: cs, rfl, untagged_of_notMem List.not_mem_nil _, .unclosed hunclosed⟩
  | case4 c cs tag rest hopening content rest' hclosing ih =>
      obtain ⟨behind, hrest', hrun, hbehind⟩ := ih
      have hcontent := Text.not_isInfix_of_splitAt? tag.closing_ne_nil hclosing
      have hstyled := Tagged.styled (Tag.isNamed_of_openingAt? hopening) hcontent hrun hbehind
      have hcs : c :: cs =
          tag.opening ++ content ++ tag.closing ++ ((gather (pieces rest')).1 ++ behind) := by
        rw [Tag.eq_append_of_openingAt? hopening, Text.splitAt?_append hclosing, ← hrest']
        simp only [List.append_assoc]
      rw [← hcs] at hstyled
      exact ⟨c :: cs, rfl, untagged_of_notMem List.not_mem_nil _, hstyled⟩

theorem Tagged.flatMap_markup (h : Tagged cs ss) : ss.flatMap Span.markup = cs := by
  induction h with
  | nil => rfl
  | unclosed h => rw [List.flatMap_singleton, Span.markup_plain]
  | styled hnamed hcontent hrun hbehind ih =>
      rw [List.flatMap_cons, List.flatMap_append, flatMap_markup_plainRun, ih, Span.markup_styled]

/-! ### Reading a span again -/

theorem rereads_plainRun (h : Untagged run behind) :
    ∀ s ∈ plainRun run, spans (String.ofList s.markup) = [s] := by
  intro s hs
  obtain ⟨hne, rfl⟩ := mem_plainRun_iff.1 hs
  rw [Span.markup_plain]
  exact spans_run hne h.alone

theorem Tagged.rereads (h : Tagged cs ss) :
    ∀ s ∈ ss, spans (String.ofList s.markup) = [s] := by
  induction h with
  | nil => exact List.forall_mem_nil _
  | unclosed h =>
      refine List.forall_mem_singleton.2 ?_
      rw [Span.markup_plain]
      exact spans_unclosed h
  | styled hnamed hcontent hrun hbehind ih =>
      refine List.forall_mem_cons.2 ⟨spans_styled hnamed hcontent, fun s hs => ?_⟩
      rcases List.mem_append.1 hs with hrun' | hs
      · exact rereads_plainRun hrun s hrun'
      · exact ih s hs

/-! ### Where plain spans stand -/

/-- A plain span in front of the spans `after` is a run without a tag, behind which no other run stands,
or the unclosed end of the text. -/
def Settles (s : Span) (after : List Span) : Prop :=
  s.isPlain = true →
    (Untagged s.content.toList (after.flatMap Span.markup) ∧
        ∀ next ∈ after.head?, next.isPlain = true → IsUnclosed next.content.toList) ∨
      (IsUnclosed s.content.toList ∧ after = [])

theorem settles_styled (tag : Tag) (content : List Char) (after : List Span) :
    Settles (.styled tag content) after := by
  intro hplain
  rw [Span.isPlain_styled] at hplain
  cases hplain

theorem Tagged.isUnclosed_of_head (h : Tagged cs ss) :
    ∀ s ∈ ss.head?, s.isPlain = true → IsUnclosed s.content.toList := by
  intro s hs hplain
  cases h with
  | nil => cases hs
  | unclosed h =>
      obtain rfl := Option.mem_some_iff.1 hs
      rwa [Span.toList_content_plain]
  | styled hnamed hcontent hrun hbehind =>
      obtain rfl := Option.mem_some_iff.1 hs
      rw [Span.isPlain_styled] at hplain
      cases hplain

theorem settles_run (hrun : Untagged run behind) (hbehind : Tagged behind ss) :
    Settles (.plain run) ss := by
  intro _
  refine .inl ⟨?_, hbehind.isUnclosed_of_head⟩
  rwa [hbehind.flatMap_markup, Span.toList_content_plain]

/-- If all plain spans behind a run are settled, the run is settled too. -/
theorem settles_of_suffix (hrun : Untagged run behind) (hbehind : Tagged behind ss)
    (hss : ∀ s after, s :: after <:+ ss → Settles s after) (s : Span) (after : List Span)
    (h : s :: after <:+ plainRun run ++ ss) : Settles s after := by
  by_cases hne : run = []
  · rw [hne] at h
    exact hss s after h
  · rw [plainRun_of_ne_nil hne, List.singleton_append, List.suffix_cons_iff] at h
    rcases h with heq | hsuffix
    · obtain ⟨rfl, rfl⟩ := List.cons.inj heq
      exact settles_run hrun hbehind
    · exact hss s after hsuffix

theorem Tagged.settles (h : Tagged cs ss) : ∀ s after, s :: after <:+ ss → Settles s after := by
  induction h with
  | nil => exact fun s after hsuffix => absurd (List.suffix_nil.1 hsuffix) (List.cons_ne_nil s after)
  | @unclosed cs h =>
      intro s after hsuffix
      rcases List.suffix_cons_iff.1 hsuffix with heq | hnil
      · obtain ⟨rfl, rfl⟩ := List.cons.inj heq
        exact fun _ => .inr ⟨by rwa [Span.toList_content_plain], rfl⟩
      · exact absurd (List.suffix_nil.1 hnil) (List.cons_ne_nil s after)
  | @styled tag content run behind ss hnamed hcontent hrun hbehind ih =>
      intro s after hsuffix
      rcases List.suffix_cons_iff.1 hsuffix with heq | hsuffix
      · obtain ⟨rfl, rfl⟩ := List.cons.inj heq
        exact settles_styled tag content _
      · exact settles_of_suffix hrun hbehind ih s after hsuffix

structure IsStable (text : String) (ss : List Span) : Prop where
  /-- Each span is read again from its own markup. -/
  rereads : ∀ s ∈ ss, spans (String.ofList s.markup) = [s]
  /-- Only the last span may be a plain one that holds an opening tag: in the others none is found, be
  it by themselves or in front of what follows them. -/
  untagged : ∀ s next after, s :: next :: after <:+ ss → s.isPlain = true →
    Untagged s.content.toList [] ∧
      Untagged s.content.toList ((next :: after).flatMap Span.markup)
  /-- Of two plain spans side by side, the second is what remains of the text from a tag on that is
  never closed. -/
  apart : ∀ s next after, s :: next :: after <:+ ss → s.isPlain = true → next.isPlain = true →
    after = [] ∧ IsUnclosed next.content.toList ∧ next.content.toList <:+ text.toList

theorem markup_suffix_of_suffix {text : String} {s : Span} (h : [s] <:+ spans text) :
    s.markup <:+ text.toList := by
  obtain ⟨front, hfront⟩ := h
  refine ⟨front.flatMap Span.markup, ?_⟩
  rw [← flatMap_markup_spans text, ← hfront, List.flatMap_append, List.flatMap_singleton]

/-- The spans of every text are stable. -/
theorem spans_stable (text : String) : IsStable text (spans text) := by
  obtain ⟨behind, -, hrun, hbehind⟩ := exists_tagged text.toList
  have hsettles : ∀ s after, s :: after <:+ spans text → Settles s after :=
    settles_of_suffix hrun hbehind hbehind.settles
  constructor
  case rereads =>
    intro s hs
    rcases List.mem_append.1 hs with hplain | hs
    · exact rereads_plainRun hrun s hplain
    · exact hbehind.rereads s hs
  case untagged =>
    intro s next after hsuffix hplain
    rcases hsettles s (next :: after) hsuffix hplain with ⟨huntagged, -⟩ | ⟨-, hnil⟩
    · exact ⟨huntagged.alone, huntagged⟩
    · cases hnil
  case apart =>
    intro s next after hsuffix hplain hnext
    rcases hsettles s (next :: after) hsuffix hplain with ⟨-, hunclosed⟩ | ⟨-, hnil⟩
    · have hopen : IsUnclosed next.content.toList := hunclosed next rfl hnext
      have hsuffix' : next :: after <:+ spans text := (List.suffix_cons s _).trans hsuffix
      rcases hsettles next after hsuffix' hnext with ⟨huntagged, -⟩ | ⟨-, rfl⟩
      · exact absurd huntagged hopen.not_untagged
      · have hend := markup_suffix_of_suffix hsuffix'
        rw [Span.markup_of_isPlain hnext] at hend
        exact ⟨rfl, hopen, hend⟩
    · cases hnil

-- the bracket that ends the name of a color may have been meant for another tag
example : spans "Well, [color=red [b]then[/b]" =
    [.plain "Well, ".toList, .plain "[color=red [b]then[/b]".toList] := by
  decide +kernel

end Dialogue.Markup
