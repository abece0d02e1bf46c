import Dialogue.Markup.Wrap
import Dialogue.Proofs.Markup.Reading
/-!
# Wrapped selections

A selection takes a text apart into what stands in front of it, the selection itself and what stands
behind it.  Wrapping it adds the two tags and nothing else, and the cursor goes to the place where one
of them ends.  In a text that had no bracket, the selection is then what is read as styled.
-/

namespace Dialogue.Markup

variable {text : String} {start stop : Nat} {tag : Tag} {before selected behind : List Char}

/-- The parts that the characters from `start` to before `stop` take a text apart into.  Bounds beyond
the text are drawn in, and a start behind the stop is drawn back to it. -/
structure IsSelection (text : String) (start stop : Nat) (before selected behind : List Char) :
    Prop where
  toList_eq : text.toList = before ++ selected ++ behind
  length_before : before.length = min start (min stop text.length)
  length_upTo : before.length + selected.length = min stop text.length

theorem isSelection_take_drop {first last : Nat} (hlast : last = min stop text.length)
    (hfirst : first = min start last) :
    IsSelection text start stop (text.toList.take first) ((text.toList.take last).drop first)
      (text.toList.drop last) where
  toList_eq := by
    have htake : text.toList.take first = (text.toList.take last).take first := by
      rw [List.take_take, Nat.min_eq_left (by omega)]
    rw [htake, List.take_append_drop, List.take_append_drop]
  length_before := by
    rw [List.length_take, String.length_toList]
    omega
  length_upTo := by
    rw [List.length_drop, List.length_take, List.length_take, String.length_toList]
    omega

def StandsBetween (front rest : List Char) (result : String × Nat) : Prop :=
  result.1.toList = front ++ rest ∧ result.2 = front.length

structure Wraps (tag : Tag) (before selected behind : List Char) (result : String × Nat) : Prop where
  toList_eq : result.1.toList = before ++ tag.opening ++ selected ++ tag.closing ++ behind
  cursor_between : selected = [] →
    StandsBetween (before ++ tag.opening) (tag.closing ++ behind) result
  cursor_behind : selected ≠ [] →
    StandsBetween (before ++ tag.opening ++ selected ++ tag.closing) behind result
  /-- Where the text had no bracket, exactly the selection is styled. -/
  spans_eq : '[' ∉ before ++ selected ++ behind → tag.IsNamed →
    spans result.1 = plainRun before ++ .styled tag selected :: plainRun behind

theorem wrap_eq (h : IsSelection text start stop before selected behind) (tag : Tag) :
    wrap text start stop tag =
      (String.ofList (before ++ tag.opening ++ selected ++ tag.closing ++ behind),
        if selected = [] then (before ++ tag.opening).length
        else (before ++ tag.opening ++ selected ++ tag.closing).length) := by
  obtain ⟨htext, hbefore, hupTo⟩ := h
  have hstart : min start (before.length + selected.length) = before.length := by
    omega
  have htake : text.toList.take before.length = before := by
    rw [htext, List.append_assoc, List.take_left]
  have htakeUpTo : text.toList.take (before.length + selected.length) = before ++ selected := by
    rw [htext, ← List.length_append, List.take_left]
  have hdrop : text.toList.drop (before.length + selected.length) = behind := by
    rw [htext, ← List.length_append, List.drop_left]
  have hempty : before.length = before.length + selected.length ↔ selected = [] := by
    rw [← List.length_eq_zero_iff]
    omega
  unfold wrap
  simp only [String.length_toList, ← hupTo, hstart, htake, htakeUpTo, hdrop, List.drop_left, hempty]
  have hbetween : (before ++ tag.opening).length = before.length + tag.opening.length :=
    List.length_append
  have hbehind : (before ++ tag.opening ++ selected ++ tag.closing).length =
      before.length + selected.length + tag.opening.length + tag.closing.length := by
    simp only [List.length_append]
    omega
  rw [hbetween, hbehind]

theorem areClear_around (hnamed : tag.IsNamed) (h : '[' ∉ before ++ selected ++ behind) :
    AreClear (plainRun before ++ .styled tag selected :: plainRun behind) := by
  simp only [List.mem_append, not_or] at h
  obtain ⟨⟨hbefore, hselected⟩, hbehind⟩ := h
  have hplain : ∀ {run : List Char}, '[' ∉ run → ∀ s ∈ plainRun run, s.IsClear := by
    intro run hrun s hs
    obtain ⟨hne, rfl⟩ := mem_plainRun_iff.1 hs
    exact .of_plain hne hrun
  have hstyled : (Span.styled tag selected).IsClear := by
    obtain ⟨chars, hclosing, -⟩ := tag.exists_closing_eq
    refine .of_styled hnamed fun hstands => hselected (hstands.subset ?_)
    rw [hclosing]
    exact List.mem_cons_self
  constructor
  case each =>
    intro s hs
    rcases List.mem_append.1 hs with hs | hs
    · exact hplain hbefore s hs
    · rcases List.mem_cons.1 hs with rfl | hs
      · exact hstyled
      · exact hplain hbehind s hs
  case apart =>
    by_cases hnil : before = [] <;> by_cases hnil' : behind = [] <;>
      simp [plainRun, hnil, hnil', Span.isPlain_iff]

theorem flatMap_markup_around (before selected behind : List Char) (tag : Tag) :
    (plainRun before ++ .styled tag selected :: plainRun behind).flatMap Span.markup =
      before ++ tag.opening ++ selected ++ tag.closing ++ behind := by
  rw [List.flatMap_append, List.flatMap_cons, flatMap_markup_plainRun, flatMap_markup_plainRun,
    Span.markup_styled]
  simp only [List.append_assoc]

/-- Wrapping a selection is exact: nothing but the tags is added, the cursor stands where they end, and
in a text without tags the selection is what is styled. -/
theorem wraps_wrap (text : String) (start stop : Nat) (tag : Tag) :
    ∃ before selected behind, IsSelection text start stop before selected behind ∧
      Wraps tag before selected behind (wrap text start stop tag) := by
  have hselection : IsSelection text start stop _ _ _ := isSelection_take_drop rfl rfl
  refine ⟨_, _, _, hselection, ?_⟩
  rw [wrap_eq hselection]
  constructor
  case toList_eq => exact String.toList_ofList
  case cursor_between =>
    intro hempty
    refine ⟨?_, if_pos hempty⟩
    rw [String.toList_ofList, hempty, List.append_nil, List.append_assoc]
  case cursor_behind =>
    intro hne
    exact ⟨String.toList_ofList, if_neg hne⟩
  case spans_eq =>
    intro hbracket hnamed
    rw [← flatMap_markup_around]
    exact spans_markup (areClear_around hnamed hbracket)

-- a stop in front of the start selects nothing, and nothing is then what is styled
example : wrap "ñandú" 5 2 .italic = ("ña[i][/i]ndú", 5) ∧
    spans "ña[i][/i]ndú" = [.plain "ña".toList, .styled .italic [], .plain "ndú".toList] := by
  decide +kernel

end Dialogue.Markup
