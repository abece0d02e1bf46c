import Dialogue.Json.Parsing
import Dialogue.Json.Reading
import Dialogue.Proofs.Outcome
/-!
# Stepping over a value

A value that nobody asked for is stepped over by a loop that keeps a stack of open lists and objects.
Whoever reads a value, be it the parser or the reader of a shape, leaves the same characters behind.

`Leads` says where the loop ends up.  What stands deeper in the stack makes no difference to a value
further up, so a value that is stepped over alone is stepped over the same way inside lists and
objects.
-/

namespace Dialogue

namespace Json

/-! ## What is left over is shorter -/

theorem length_skipGaps_le (cs : List Char) : (skipGaps cs).length ≤ cs.length :=
  (List.dropWhile_suffix _).length_le

theorem length_lt_of_skipGaps {cs rest : List Char} {c : Char} (h : skipGaps cs = c :: rest) :
    rest.length < cs.length := by
  have := length_skipGaps_le cs
  rw [h, List.length_cons] at this
  omega

theorem length_skipWord_le {word cs rest : List Char} (h : skipWord word cs = .ok rest) :
    rest.length ≤ cs.length := by
  induction word generalizing cs with
  | nil => cases h; exact Nat.le_refl _
  | cons expected word ih =>
      cases cs with
      | nil => cases h
      | cons c cs =>
          rw [skipWord] at h
          split at h
          · exact Nat.le_succ_of_le (ih h)
          · cases h

theorem length_skipText_lt {cs rest : List Char} (h : skipText cs = .ok rest) :
    rest.length < cs.length := by
  fun_induction skipText cs with
  | case3 a b c d cs n hunit ih =>
      have := ih h
      simp only [List.length_cons]
      omega
  | _ => grind [failUnit, failAt, failBefore, Text.failBehind, Text.failBefore]

/-- Reading a text asks for more than stepping over it, and ends at the same place. -/
theorem skipText_of_unquote {done : List Char} {half : Option Nat} {cs rest : List Char} {s : String}
    (h : unquote done half cs = .ok (s, rest)) : skipText cs = .ok rest := by
  fun_induction unquote done half cs <;>
    grind [skipText, failUnit, failAt, failBefore, Text.failBehind, Text.failBefore]

/-! ### Numerals -/

/-- Digits are there or not, whatever the fault would be. -/
theorem digitRun_of_eq_ok {fault : Fault} {cs ds rest : List Char}
    (h : digitRun fault cs = .ok (ds, rest)) :
    rest.length < cs.length ∧ ∀ other, digitRun other cs = .ok (ds, rest) := by
  cases hrun : cs.takeWhile Char.isDigit with
  | nil =>
      unfold digitRun at h
      rw [hrun] at h
      cases cs <;> cases h
  | cons d run =>
      have hlength := congrArg List.length (@List.takeWhile_append_dropWhile _ Char.isDigit cs)
      rw [hrun, List.length_append, List.length_cons] at hlength
      simp only [digitRun, hrun] at h ⊢
      cases h
      exact ⟨by omega, fun _ => rfl⟩

theorem wholePart_of_eq_ok {fault : Fault} {cs ds rest : List Char}
    (h : wholePart fault cs = .ok (ds, rest)) :
    rest.length < cs.length ∧ ∀ other, wholePart other cs = .ok (ds, rest) := by
  have hfound := h
  rw [wholePart] at hfound
  obtain ⟨⟨run, left⟩, hrun, hpart⟩ := exists_of_bind_eq_ok hfound
  obtain ⟨hlength, hsame⟩ := digitRun_of_eq_ok hrun
  have hother : ∀ other, wholePart other cs = wholePart fault cs := fun other => by
    rw [wholePart, wholePart, hrun, hsame]
  refine ⟨?_, fun other => (hother other).trans h⟩
  simp only at hpart
  split at hpart <;> cases hpart
  exact hlength

theorem fractionPart_of_eq_ok {fault : Fault} {cs rest : List Char} {fraction : Option (List Char)}
    (h : fractionPart fault cs = .ok (fraction, rest)) :
    rest.length ≤ cs.length ∧ ∀ other, fractionPart other cs = .ok (fraction, rest) := by
  unfold fractionPart at h ⊢
  split at h
  next cs =>
    obtain ⟨run, hrun, heq⟩ := exists_of_map_eq_ok h
    cases heq
    obtain ⟨hlength, hsame⟩ := digitRun_of_eq_ok hrun
    refine ⟨by simp only [List.length_cons]; omega, fun other => ?_⟩
    simp only [hsame]
    rfl
  next hnone =>
    cases h
    exact ⟨Nat.le_refl _, fun _ => rfl⟩

theorem length_exponentSign_le (cs : List Char) : (exponentSign cs).2.length ≤ cs.length := by
  unfold exponentSign
  split <;> simp

theorem exponentPart_of_eq_ok {fault : Fault} {cs rest : List Char}
    {exponent : Option (Bool × List Char)} (h : exponentPart fault cs = .ok (exponent, rest)) :
    rest.length ≤ cs.length ∧ ∀ other, exponentPart other cs = .ok (exponent, rest) := by
  cases cs with
  | nil =>
      cases h
      exact ⟨Nat.le_refl _, fun _ => rfl⟩
  | cons c cs =>
      simp only [exponentPart] at h ⊢
      split at h
      next hmark =>
        obtain ⟨run, hrun, heq⟩ := exists_of_map_eq_ok h
        cases heq
        obtain ⟨hlength, hsame⟩ := digitRun_of_eq_ok hrun
        have hsign := length_exponentSign_le cs
        refine ⟨by simp only [List.length_cons]; omega, fun other => ?_⟩
        rw [if_pos hmark, hsame]
        rfl
      next hmark =>
        cases h
        exact ⟨Nat.le_refl _, fun _ => if_neg hmark⟩

theorem numeral_of_eq_ok {fault : Fault} {cs rest : List Char} {n : Numeral}
    (h : numeral fault cs = .ok (n, rest)) :
    rest.length < cs.length ∧ ∀ other, numeral other cs = .ok (n, rest) := by
  have hfound := h
  unfold numeral at hfound
  obtain ⟨⟨ds, afterWhole⟩, hwhole, hfound⟩ := exists_of_bind_eq_ok hfound
  obtain ⟨⟨fraction, afterFraction⟩, hfraction, hfound⟩ := exists_of_bind_eq_ok hfound
  obtain ⟨⟨exponent, left⟩, hexponent, hfound⟩ := exists_of_bind_eq_ok hfound
  have hleft : left = rest := congrArg Prod.snd (Except.ok.inj hfound)
  subst hleft
  obtain ⟨hlt, hwholeSame⟩ := wholePart_of_eq_ok hwhole
  obtain ⟨hle, hfractionSame⟩ := fractionPart_of_eq_ok hfraction
  obtain ⟨hle', hexponentSame⟩ := exponentPart_of_eq_ok hexponent
  have hwholeLt : afterWhole.length < cs.length := by
    -- A sign only makes the text longer.
    split at hlt
    · exact Nat.lt_succ_of_lt hlt
    · exact hlt
  refine ⟨by omega, fun other => Eq.trans ?_ h⟩
  unfold numeral
  simp only [hwhole, hwholeSame, hfraction, hfractionSame, hexponent, hexponentSame, bind,
    Except.bind]

theorem skipNumber_of_scanNumber {cs rest : List Char} {n : Number}
    (h : scanNumber cs = .ok (n, rest)) : skipNumber cs = .ok rest := by
  unfold scanNumber at h
  obtain ⟨⟨numeral, left⟩, hnumeral, h⟩ := exists_of_bind_eq_ok h
  simp only at h
  split at h
  · cases h
    rw [skipNumber, (numeral_of_eq_ok hnumeral).2]
    rfl
  · cases h

theorem length_skipNumber_lt {cs rest : List Char} (h : skipNumber cs = .ok rest) :
    rest.length < cs.length := by
  obtain ⟨⟨numeral, left⟩, hnumeral, rfl⟩ := exists_of_map_eq_ok h
  exact (numeral_of_eq_ok hnumeral).1

/-! ### Items -/

theorem length_colon_lt {cs rest : List Char} (h : colon cs = .ok rest) :
    rest.length < cs.length := by
  unfold colon at h
  split at h
  · cases h
  next c tail hcs =>
    split at h
    · cases h
      exact length_lt_of_skipGaps hcs
    · cases h

theorem length_skipKey_lt {cs rest : List Char} (h : skipKey cs = .ok rest) :
    rest.length < cs.length := by
  unfold skipKey at h
  split at h
  · cases h
  next tail hcs =>
    obtain ⟨afterKey, hkey, hcolon⟩ := exists_of_bind_eq_ok h
    have := length_lt_of_skipGaps hcs
    have := length_skipText_lt hkey
    have := length_colon_lt hcolon
    omega
  · cases h

theorem length_skipPlain_lt {cs rest : List Char} (h : skipPlain cs = .ok rest) :
    rest.length < cs.length := by
  cases cs with
  | nil => cases h
  | cons c cs =>
      simp only [skipPlain] at h
      split at h
      · exact Nat.lt_succ_of_le (length_skipWord_le h)
      split at h
      · exact Nat.lt_succ_of_le (length_skipWord_le h)
      split at h
      · exact Nat.lt_succ_of_le (length_skipWord_le h)
      split at h
      · exact length_skipNumber_lt h
      split at h
      · exact Nat.lt_succ_of_lt (length_skipText_lt h)
      · cases h

theorem length_skipClosing_le {frames open' : List Frame} {cs rest : List Char}
    (h : skipClosing frames cs = .ok (open', rest)) : rest.length ≤ cs.length := by
  induction frames generalizing cs with
  | nil => cases h; exact Nat.le_refl _
  | cons frame frames ih =>
      unfold skipClosing at h
      split at h
      · cases h
      next c tail hcs =>
        have hlt := length_lt_of_skipGaps hcs
        split at h
        · exact Nat.le_trans (ih h) (Nat.le_of_lt hlt)
        · split at h
          · cases h
            exact Nat.le_of_lt hlt
          · cases h

theorem length_openFrame_le {frame : Frame} {frames open' : List Frame} {cs rest : List Char}
    (h : openFrame frame frames cs = .ok (open', rest)) : rest.length ≤ cs.length := by
  unfold openFrame at h
  split at h
  · cases h
  next c tail hcs =>
    split at h
    · exact Nat.le_trans (length_skipClosing_le h) (Nat.le_of_lt (length_lt_of_skipGaps hcs))
    · cases h
      exact hcs ▸ length_skipGaps_le cs

theorem length_skipOne_lt {frames open' : List Frame} {cs rest : List Char}
    (h : skipOne frames cs = .ok (open', rest)) : rest.length < cs.length := by
  unfold skipOne at h
  split at h
  next tail hcs => exact Nat.lt_of_le_of_lt (length_openFrame_le h) (length_lt_of_skipGaps hcs)
  next tail hcs => exact Nat.lt_of_le_of_lt (length_openFrame_le h) (length_lt_of_skipGaps hcs)
  next =>
    obtain ⟨tail, hplain, hclosing⟩ := exists_of_bind_eq_ok h
    have := length_skipPlain_lt hplain
    have := length_skipClosing_le hclosing
    have := length_skipGaps_le cs
    omega

theorem length_skipItem_lt {frames open' : List Frame} {cs rest : List Char}
    (h : skipItem frames cs = .ok (open', rest)) : rest.length < cs.length := by
  unfold skipItem at h
  split at h
  · obtain ⟨tail, hkey, hone⟩ := exists_of_bind_eq_ok h
    exact Nat.lt_trans (length_skipOne_lt hone) (length_skipKey_lt hkey)
  · exact length_skipOne_lt h

/-! ## Where the loop leads -/

/-- From open frames the loop goes on until none is open, and leaves the characters `rest`. -/
inductive Finishes : List Frame → List Char → List Char → Prop
  | closed (rest : List Char) : Finishes [] rest rest
  | next {frame : Frame} {frames open' : List Frame} {cs left rest : List Char}
      (hitem : skipItem (frame :: frames) cs = .ok (open', left)) (hleft : Finishes open' left rest) :
      Finishes (frame :: frames) cs rest

/-- What a step comes to is the beginning of a way that leaves the characters `rest`. -/
def Leads (step : Except Failure (List Frame × List Char)) (rest : List Char) : Prop :=
  ∃ frames cs, step = .ok (frames, cs) ∧ Finishes frames cs rest

theorem leads_ok_iff {frames : List Frame} {cs rest : List Char} :
    Leads (.ok (frames, cs)) rest ↔ Finishes frames cs rest := by
  constructor
  · rintro ⟨_, _, heq, h⟩
    cases heq
    exact h
  · exact fun h => ⟨frames, cs, rfl, h⟩

theorem finishes_nil_iff {cs rest : List Char} : Finishes [] cs rest ↔ cs = rest := by
  constructor
  · intro h
    cases h
    rfl
  · rintro rfl
    exact .closed _

theorem finishes_cons_iff {frame : Frame} {frames : List Frame} {cs rest : List Char} :
    Finishes (frame :: frames) cs rest ↔ Leads (skipItem (frame :: frames) cs) rest := by
  constructor
  · intro h
    cases h with
    | next hitem hleft => exact ⟨_, _, hitem, hleft⟩
  · rintro ⟨_, _, hitem, hleft⟩
    exact .next hitem hleft

/-- The clock does not run down before the loop is through: each item takes a character. -/
theorem skipItems_eq_ok_iff {clock cs : List Char} (hclock : cs.length ≤ clock.length)
    {frames : List Frame} {rest : List Char} :
    skipItems clock frames cs = .ok rest ↔ Leads (skipItem frames cs) rest := by
  induction clock generalizing frames cs with
  | nil =>
      obtain rfl := List.eq_nil_of_length_eq_zero (Nat.le_zero.1 hclock)
      have hstuck : ∀ open' left, skipItem frames [] ≠ .ok (open', left) :=
        fun _ _ h => Nat.not_lt_zero _ (length_skipItem_lt h)
      constructor
      · intro h
        obtain ⟨⟨open', left⟩, hitem, -⟩ := exists_of_map_eq_ok h
        exact absurd hitem (hstuck _ _)
      · rintro ⟨_, _, hitem, -⟩
        exact absurd hitem (hstuck _ _)
  | cons c clock ih =>
      unfold skipItems
      cases hitem : skipItem frames cs with
      | error e =>
          constructor
          · intro h
            cases h
          · rintro ⟨_, _, heq, -⟩
            cases heq
      | ok next =>
          obtain ⟨open', left⟩ := next
          rw [leads_ok_iff]
          cases open' with
          | nil =>
              rw [finishes_nil_iff]
              exact ⟨Except.ok.inj, congrArg Except.ok⟩
          | cons frame frames' =>
              have hlt := length_skipItem_lt hitem
              rw [finishes_cons_iff]
              exact ih (by simp only [List.length_cons] at hclock; omega)

theorem skipValue_eq_ok_iff {cs rest : List Char} :
    skipValue cs = .ok rest ↔ Leads (skipOne [] cs) rest :=
  skipItems_eq_ok_iff (Nat.le_refl _)

theorem length_le_of_finishes {frames : List Frame} {cs rest : List Char}
    (h : Finishes frames cs rest) : rest.length ≤ cs.length := by
  induction h with
  | closed => exact Nat.le_refl _
  | next hitem _ ih => exact Nat.le_trans ih (Nat.le_of_lt (length_skipItem_lt hitem))

theorem length_skipValue_lt {cs rest : List Char} (h : skipValue cs = .ok rest) :
    rest.length < cs.length := by
  obtain ⟨_, _, hone, hfinishes⟩ := skipValue_eq_ok_iff.1 h
  exact Nat.lt_of_le_of_lt (length_le_of_finishes hfinishes) (length_skipOne_lt hone)

/-! ### Frames further down -/

def resumed (frames : List Frame) :
    List Frame × List Char → Except Failure (List Frame × List Char)
  | ([], cs) => skipClosing frames cs
  | (above, cs) => .ok (above ++ frames, cs)

theorem skipClosing_append (above frames : List Frame) (cs : List Char) :
    skipClosing (above ++ frames) cs = skipClosing above cs >>= resumed frames := by
  induction above generalizing cs with
  | nil => rfl
  | cons frame above ih =>
      rw [List.cons_append]
      unfold skipClosing
      split
      · rfl
      · split
        · exact ih _
        · split <;> rfl

theorem openFrame_append (frame : Frame) (above frames : List Frame) (cs : List Char) :
    openFrame frame (above ++ frames) cs = openFrame frame above cs >>= resumed frames := by
  unfold openFrame
  split
  · rfl
  · split
    · exact skipClosing_append above frames _
    · rfl

theorem skipOne_append (above frames : List Frame) (cs : List Char) :
    skipOne (above ++ frames) cs = skipOne above cs >>= resumed frames := by
  unfold skipOne
  split
  · exact openFrame_append .list above frames _
  · exact openFrame_append .object above frames _
  · simp only [skipClosing_append, bind_assoc]

theorem skipItem_append (frame : Frame) (above frames : List Frame) (cs : List Char) :
    skipItem (frame :: above ++ frames) cs = skipItem (frame :: above) cs >>= resumed frames := by
  cases frame with
  | list => exact skipOne_append (.list :: above) frames cs
  | object =>
      have hone := skipOne_append (.object :: above) frames
      simp only [List.cons_append] at hone ⊢
      simp only [skipItem, hone, bind_assoc]

theorem leads_resumed {above frames : List Frame} {cs rest out : List Char}
    (h : Finishes above cs rest) (hout : Leads (skipClosing frames rest) out) :
    Leads (resumed frames (above, cs)) out := by
  induction h with
  | closed => exact hout
  | next hitem hleft ih =>
      rw [resumed, leads_ok_iff, List.cons_append, finishes_cons_iff, ← List.cons_append,
        skipItem_append, hitem]
      · exact ih hout
      · simp

/-- A value that is stepped over alone is stepped over inside any frames. -/
theorem leads_skipOne {cs rest : List Char} (h : skipValue cs = .ok rest) {frames : List Frame}
    {out : List Char} (hout : Leads (skipClosing frames rest) out) :
    Leads (skipOne frames cs) out := by
  obtain ⟨above, left, hone, hleft⟩ := skipValue_eq_ok_iff.1 h
  have happend := skipOne_append [] frames cs
  rw [List.nil_append, hone] at happend
  rw [happend]
  exact leads_resumed hleft hout

/-! ## Single values -/

theorem skipGaps_skipGaps (cs : List Char) : skipGaps (skipGaps cs) = skipGaps cs := by
  unfold skipGaps
  induction cs with
  | nil => rfl
  | cons c cs ih =>
      by_cases h : isGap c = true
      · simp only [List.dropWhile_cons_of_pos h, ih]
      · simp only [List.dropWhile_cons_of_neg h]

theorem skipOne_skipGaps (frames : List Frame) (cs : List Char) :
    skipOne frames (skipGaps cs) = skipOne frames cs := by
  unfold skipOne
  rw [skipGaps_skipGaps]

theorem skipValue_of_skipPlain {cs tail rest : List Char} {c : Char}
    (hcs : skipGaps cs = c :: tail) (hlist : c ≠ '[') (hobject : c ≠ '{')
    (hplain : skipPlain (c :: tail) = .ok rest) : skipValue cs = .ok rest := by
  have hone : skipOne [] cs = .ok ([], rest) := by
    unfold skipOne
    rw [hcs]
    split
    next heq => exact absurd (List.cons.inj heq).1 hlist
    next heq => exact absurd (List.cons.inj heq).1 hobject
    next => rw [hplain]; rfl
  rw [skipValue_eq_ok_iff, hone, leads_ok_iff]
  exact .closed rest

/-- Goes on in a list or an object that stands alone: behind its opening mark, or behind a value. -/
def goOn (frame : Frame) : Bool → Scan (List Frame)
  | true => openFrame frame []
  | false => skipClosing [frame]

theorem skipValue_of_goOn_list {cs tail rest : List Char} (hcs : skipGaps cs = '[' :: tail)
    (h : Leads (goOn .list true tail) rest) : skipValue cs = .ok rest := by
  rw [skipValue_eq_ok_iff, skipOne, hcs]
  exact h

theorem skipValue_of_goOn_object {cs tail rest : List Char} (hcs : skipGaps cs = '{' :: tail)
    (h : Leads (goOn .object true tail) rest) : skipValue cs = .ok rest := by
  rw [skipValue_eq_ok_iff, skipOne, hcs]
  exact h

/-! ### Lists -/

theorem skipGaps_of_closeList {cs rest : List Char} (h : closeList cs = .ok rest) :
    skipGaps cs = ']' :: rest := by
  unfold closeList at h
  split at h
  · cases h
  · cases h
    assumption
  · split at h <;> cases h
  · cases h

theorem leads_goOn_of_closeList {first : Bool} {cs rest : List Char}
    (h : closeList cs = .ok rest) : Leads (goOn .list first cs) rest := by
  have hstep : goOn .list first cs = .ok ([], rest) := by
    cases first <;> simp [goOn, openFrame, skipClosing, skipGaps_of_closeList h, Frame.close]
  rw [hstep, leads_ok_iff]
  exact .closed rest

theorem leads_goOn_of_nextElement {first : Bool} {cs item left rest : List Char}
    (hnext : nextElement first cs = .ok (some item)) (hitem : skipValue item = .ok left)
    (hrest : Leads (goOn .list false left) rest) : Leads (goOn .list first cs) rest := by
  -- The loop may not have stepped over the white space in front of the element yet.
  have hstep : ∃ cs', goOn .list first cs = .ok ([.list], cs') ∧ skipGaps cs' = skipGaps item := by
    unfold nextElement at hnext
    split at hnext
    · cases hnext
    next c tail hcs =>
      split at hnext
      · cases hnext
      next hopen =>
        split at hnext
        next hfirst =>
          cases hnext
          exact ⟨c :: tail, by simp [goOn, hfirst, openFrame, hcs, Frame.close, hopen], rfl⟩
        next hfirst =>
          split at hnext
          next hcomma =>
            split at hnext
            · cases hnext
            next d more htail =>
              split at hnext
              · cases hnext
              · cases hnext
                refine ⟨tail, ?_, by rw [← htail, skipGaps_skipGaps]⟩
                simp [goOn, hfirst, skipClosing, hcs, Frame.close, hcomma]
          · cases hnext
  obtain ⟨cs', hstep, hgaps⟩ := hstep
  rw [hstep, leads_ok_iff, finishes_cons_iff]
  change Leads (skipOne [.list] cs') rest
  rw [← skipOne_skipGaps, hgaps, skipOne_skipGaps]
  exact leads_skipOne hitem hrest

/-! ### Objects -/

theorem skipGaps_of_closeObject {cs rest : List Char} (h : closeObject cs = .ok rest) :
    skipGaps cs = '}' :: rest := by
  unfold closeObject at h
  split at h
  · cases h
  · cases h
    assumption
  · cases h
  · cases h

theorem leads_goOn_of_closeObject {first : Bool} {cs rest : List Char}
    (h : closeObject cs = .ok rest) : Leads (goOn .object first cs) rest := by
  have hstep : goOn .object first cs = .ok ([], rest) := by
    cases first <;> simp [goOn, openFrame, skipClosing, skipGaps_of_closeObject h, Frame.close]
  rw [hstep, leads_ok_iff]
  exact .closed rest

theorem exists_of_key_eq_ok {cs left : List Char} {name : String} (h : key cs = .ok (name, left)) :
    ∃ tail, cs = '"' :: tail ∧ skipText tail = .ok left := by
  cases cs with
  | nil => cases h
  | cons c tail =>
      simp only [key] at h
      split at h
      next hquote => exact ⟨tail, by rw [hquote], skipText_of_unquote h⟩
      next =>
        split at h <;> cases h

theorem exists_of_nextKey {first : Bool} {cs left : List Char} {name : String}
    (h : nextKey first cs = .ok (some (name, left))) :
    ∃ cs' tail, goOn .object first cs = .ok ([.object], cs') ∧ skipGaps cs' = '"' :: tail ∧
      skipText tail = .ok left := by
  unfold nextKey at h
  split at h
  · cases h
  next c tail hcs =>
    split at h
    · cases h
    next hopen =>
      split at h
      next hfirst =>
        obtain ⟨⟨_, _⟩, hkey, heq⟩ := exists_of_map_eq_ok h
        cases heq
        obtain ⟨text, heq, htext⟩ := exists_of_key_eq_ok hkey
        refine ⟨c :: tail, text, ?_, ?_, htext⟩
        · simp [goOn, hfirst, openFrame, hcs, Frame.close, hopen]
        · rw [← hcs, skipGaps_skipGaps, hcs, heq]
      next hfirst =>
        split at h
        next hcomma =>
          obtain ⟨⟨_, _⟩, hkey, heq⟩ := exists_of_map_eq_ok h
          cases heq
          obtain ⟨text, heq, htext⟩ := exists_of_key_eq_ok hkey
          refine ⟨tail, text, ?_, heq, htext⟩
          simp [goOn, hfirst, skipClosing, hcs, Frame.close, hcomma]
        · cases h

theorem leads_goOn_of_nextKey {first : Bool} {cs behindKey value left rest : List Char}
    {name : String} (hnext : nextKey first cs = .ok (some (name, behindKey)))
    (hcolon : colon behindKey = .ok value) (hvalue : skipValue value = .ok left)
    (hrest : Leads (goOn .object false left) rest) : Leads (goOn .object first cs) rest := by
  obtain ⟨cs', tail, hstep, hgaps, htext⟩ := exists_of_nextKey hnext
  have hkey : skipKey cs' = .ok value := by
    unfold skipKey
    rw [hgaps]
    simp only [htext]
    exact hcolon
  rw [hstep, leads_ok_iff, finishes_cons_iff, skipItem, hkey]
  exact leads_skipOne hvalue hrest

/-! ## Readers -/

def StepsOver {α : Type} (scan : Scan α) : Prop :=
  ∀ ⦃cs x rest⦄, scan cs = .ok (x, rest) → skipValue cs = .ok rest

section Listings

variable {α : Type} {scan : Scan α} {rest : List Char}

inductive ElementsRead (scan : Scan α) (rest : List Char) :
    List Char → Bool → List Char → List α → Prop
  | done {c : Char} {clock cs : List Char} {first : Bool} (hnext : nextElement first cs = .ok none)
      (hclose : closeList cs = .ok rest) : ElementsRead scan rest (c :: clock) first cs []
  | more {c : Char} {clock cs item left : List Char} {first : Bool} {x : α} {xs : List α}
      (hnext : nextElement first cs = .ok (some item)) (hitem : scan item = .ok (x, left))
      (hmore : ElementsRead scan rest clock false left xs) :
      ElementsRead scan rest (c :: clock) first cs (x :: xs)

theorem elements_eq_ok_iff {clock cs : List Char} {first : Bool} {xs : List α} :
    elements scan clock first cs = .ok (xs, rest) ↔ ElementsRead scan rest clock first cs xs := by
  constructor
  · intro h
    induction clock generalizing first cs xs with
    | nil => cases h
    | cons c clock ih =>
        obtain ⟨next, hnext, h⟩ := exists_of_bind_eq_ok h
        cases next with
        | none =>
            obtain ⟨left, hclose, h⟩ := exists_of_bind_eq_ok h
            cases h
            exact .done hnext hclose
        | some item =>
            obtain ⟨⟨x, left⟩, hitem, h⟩ := exists_of_bind_eq_ok h
            obtain ⟨⟨xs', left'⟩, hmore, h⟩ := exists_of_bind_eq_ok h
            cases h
            exact .more hnext hitem (ih hmore)
  · intro h
    induction h with
    | done hnext hclose =>
        simp only [elements, hnext, hclose, bind, Except.bind]
        rfl
    | more hnext hitem _ ih =>
        simp only [elements, hnext, hitem, ih, bind, Except.bind]
        rfl

inductive MembersRead (scan : Scan α) (rest : List Char) :
    List Char → Bool → List Char → List (String × α) → Prop
  | done {c : Char} {clock cs : List Char} {first : Bool} (hnext : nextKey first cs = .ok none)
      (hclose : closeObject cs = .ok rest) : MembersRead scan rest (c :: clock) first cs []
  | more {c : Char} {clock cs behindKey value left : List Char} {first : Bool} {name : String} {x : α}
      {xs : List (String × α)} (hnext : nextKey first cs = .ok (some (name, behindKey)))
      (hcolon : colon behindKey = .ok value) (hvalue : scan value = .ok (x, left))
      (hmore : MembersRead scan rest clock false left xs) :
      MembersRead scan rest (c :: clock) first cs ((name, x) :: xs)

theorem members_eq_ok_iff {clock cs : List Char} {first : Bool} {xs : List (String × α)} :
    members scan clock first cs = .ok (xs, rest) ↔ MembersRead scan rest clock first cs xs := by
  constructor
  · intro h
    induction clock generalizing first cs xs with
    | nil => cases h
    | cons c clock ih =>
        obtain ⟨next, hnext, h⟩ := exists_of_bind_eq_ok h
        cases next with
        | none =>
            obtain ⟨left, hclose, h⟩ := exists_of_bind_eq_ok h
            cases h
            exact .done hnext hclose
        | some member =>
            obtain ⟨name, behindKey⟩ := member
            obtain ⟨value, hcolon, h⟩ := exists_of_bind_eq_ok h
            obtain ⟨⟨x, left⟩, hvalue, h⟩ := exists_of_bind_eq_ok h
            obtain ⟨⟨xs', left'⟩, hmore, h⟩ := exists_of_bind_eq_ok h
            cases h
            exact .more hnext hcolon hvalue (ih hmore)
  · intro h
    induction h with
    | done hnext hclose =>
        simp only [members, hnext, hclose, bind, Except.bind]
        rfl
    | more hnext hcolon hvalue _ ih =>
        simp only [members, hnext, hcolon, hvalue, ih, bind, Except.bind]
        rfl

theorem leads_of_elements (hscan : StepsOver scan) {clock cs : List Char} {first : Bool} {xs : List α}
    (h : ElementsRead scan rest clock first cs xs) : Leads (goOn .list first cs) rest := by
  induction h with
  | done _ hclose => exact leads_goOn_of_closeList hclose
  | more hnext hitem _ ih => exact leads_goOn_of_nextElement hnext (hscan hitem) ih

theorem leads_of_members (hscan : StepsOver scan) {clock cs : List Char} {first : Bool}
    {xs : List (String × α)} (h : MembersRead scan rest clock first cs xs) :
    Leads (goOn .object first cs) rest := by
  induction h with
  | done _ hclose => exact leads_goOn_of_closeObject hclose
  | more hnext hcolon hvalue _ ih => exact leads_goOn_of_nextKey hnext hcolon (hscan hvalue) ih

end Listings

end Json

end Dialogue
