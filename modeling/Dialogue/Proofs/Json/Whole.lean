import Dialogue.Json.Numeral
import Dialogue.Proofs.Json.Reads
import Dialogue.Proofs.Text.Decimal
/-!
# Whole numbers read back

A whole number of 64 bits, with a sign or without, is read back from its decimal digits.
-/

namespace Dialogue.Json

/-! ## Runs of digits -/

theorem Ends.not_numeral {rest : List Char} (h : Ends rest) (atEnd : Fault) :
    rest.takeWhile Char.isDigit = [] ∧ fractionPart atEnd rest = .ok (none, rest) ∧
      exponentPart atEnd rest = .ok (none, rest) := by
  cases rest with
  | nil => exact ⟨rfl, rfl, rfl⟩
  | cons c rest =>
      have hc : c ∈ [' ', '\n', '\t', '\r', ',', ']', '}'] := by
        have hend := h c rfl
        simp only [isGap, Bool.or_eq_true, decide_eq_true_eq, List.mem_cons, List.not_mem_nil,
          or_false] at hend ⊢
        simpa only [or_assoc] using hend
      simp only [List.mem_cons, List.not_mem_nil, or_false] at hc
      rcases hc with rfl | rfl | rfl | rfl | rfl | rfl | rfl <;> exact ⟨rfl, rfl, rfl⟩

theorem digitRun_append {ds rest : List Char} (hne : ds ≠ []) (hds : ∀ c ∈ ds, c.isDigit = true)
    (hrest : rest.takeWhile Char.isDigit = []) (atEnd : Fault) :
    digitRun atEnd (ds ++ rest) = .ok (ds, rest) := by
  obtain ⟨d, ds, rfl⟩ := List.exists_cons_of_ne_nil hne
  have hdrop : rest.dropWhile Char.isDigit = rest := by
    simpa [hrest] using List.takeWhile_append_dropWhile (p := Char.isDigit) (l := rest)
  simp only [digitRun, List.takeWhile_append_of_pos hds, List.dropWhile_append_of_pos hds, hrest,
    hdrop, List.append_nil]

/-! ## Decimal digits -/

theorem head?_toDigits_ne {n : Nat} (h : 0 < n) : (Nat.toDigits 10 n).head? ≠ some '0' := by
  -- The last digit comes off the end, so the first digit is that of `n / 10`.
  induction n using Nat.strongRecOn with
  | ind n ih =>
      by_cases hsmall : n < 10
      · rw [Nat.toDigits_of_lt_base hsmall]
        simpa using Nat.ne_of_gt h
      · have hhead := ih (n / 10) (by omega) (by omega)
        obtain ⟨d, ds, hds⟩ := List.exists_cons_of_ne_nil
          (Nat.toDigits_ne_nil (n := n / 10) (b := 10))
        rw [Nat.toDigits_of_base_le (by omega) (by omega)]
        rw [hds] at hhead ⊢
        exact hhead

theorem digitsValue_toDigits (n : Nat) : digitsValue (Nat.toDigits 10 n) = n :=
  Nat.ofDigitChars_ten_toDigits

theorem wholePart_toDigits (n : Nat) {rest : List Char}
    (hrest : rest.takeWhile Char.isDigit = []) (atEnd : Fault) :
    wholePart atEnd (Nat.toDigits 10 n ++ rest) = .ok (Nat.toDigits 10 n, rest) := by
  have hdigits : ∀ c ∈ Nat.toDigits 10 n, c.isDigit = true :=
    fun _ => Text.isDigit_of_mem_toDigits
  have hrun := digitRun_append Nat.toDigits_ne_nil hdigits hrest atEnd
  unfold wholePart
  rw [hrun]
  rcases Nat.eq_zero_or_pos n with rfl | hpos
  · rfl
  · have hhead := head?_toDigits_ne hpos
    cases hds : Nat.toDigits 10 n with
    | nil => rfl
    | cons d ds =>
        rw [hds, List.head?_cons] at hhead
        have hzero : d ≠ '0' := fun h => hhead (congrArg some h)
        simp only [bind, Except.bind]
        split
        next heq => exact absurd (List.cons.inj heq).1 hzero
        next => rfl

theorem head?_toDigits_ne_minus (n : Nat) : (Nat.toDigits 10 n).head? ≠ some '-' := by
  intro h
  have hdigit := Text.isDigit_of_mem_toDigits (List.mem_of_head? h)
  simp at hdigit

theorem numeral_toDigits (n : Nat) {rest : List Char} (hrest : Ends rest) (atEnd : Fault) :
    numeral atEnd (Nat.toDigits 10 n ++ rest) =
      .ok (⟨false, Nat.toDigits 10 n, none, none⟩, rest) := by
  obtain ⟨hrun, hfraction, hexponent⟩ := hrest.not_numeral atEnd
  have hwhole := wholePart_toDigits n hrun atEnd
  have hsign := head?_toDigits_ne_minus n
  obtain ⟨d, ds, hds⟩ := List.exists_cons_of_ne_nil (Nat.toDigits_ne_nil (n := n) (b := 10))
  rw [hds] at hwhole hsign ⊢
  unfold numeral
  -- The sign is looked for first; what begins with a digit has none.
  split
  next negative cs hcs =>
    split at hcs
    next heq => exact absurd (congrArg some (List.cons.inj heq).1) hsign
    next =>
      cases hcs
      simp only [hwhole, hfraction, hexponent, bind, Except.bind, pure, Except.pure]

theorem numeral_minus (n : Nat) {rest : List Char} (hrest : Ends rest) (atEnd : Fault) :
    numeral atEnd ('-' :: (Nat.toDigits 10 n ++ rest)) =
      .ok (⟨true, Nat.toDigits 10 n, none, none⟩, rest) := by
  obtain ⟨hrun, hfraction, hexponent⟩ := hrest.not_numeral atEnd
  simp only [numeral, wholePart_toDigits n hrun atEnd, hfraction, hexponent, bind, Except.bind,
    pure, Except.pure]

/-! ## Numbers of 64 bits -/

theorem number?_natural {n : Nat} (h : n < Text.sizeBound) :
    Numeral.number? ⟨false, Nat.toDigits 10 n, none, none⟩ = some (.whole n) := by
  have hbound : n < Number.twoTo 64 := h
  simp [Numeral.number?, digitsValue_toDigits, hbound]

theorem number?_negative {n : Nat} (hpos : 0 < n) (h : (n : Int) ≤ -Text.leastCount) :
    Numeral.number? ⟨true, Nat.toDigits 10 n, none, none⟩ = some (.whole (-n)) := by
  have hbound : n ≤ Number.twoTo 63 := by
    have htwo : (Number.twoTo 63 : Int) = -Text.leastCount := rfl
    omega
  simp [Numeral.number?, digitsValue_toDigits, hbound, Nat.ne_of_gt hpos]

def FitsWord (n : Int) : Prop := Text.leastCount ≤ n ∧ n < Text.sizeBound

theorem fitsWord_of_count {n : Int} (hleast : Text.leastCount ≤ n)
    (hgreatest : n ≤ Text.greatestCount) : FitsWord n := by
  have hbound : Text.greatestCount < Text.sizeBound := by decide
  exact ⟨hleast, by omega⟩

theorem fitsWord_of_size {n : Nat} (h : n < Text.sizeBound) : FitsWord n := by
  have hleast : Text.leastCount ≤ 0 := by decide
  exact ⟨by omega, by omega⟩

theorem chars_natural {n : Int} (h : 0 ≤ n) :
    (Number.whole n).chars = Nat.toDigits 10 n.toNat :=
  Text.toList_toString_of_nonneg h

theorem chars_negative {n : Int} (h : n < 0) :
    (Number.whole n).chars = '-' :: Nat.toDigits 10 (-n).toNat :=
  Text.toList_toString_of_neg h

theorem exists_chars_whole (n : Int) :
    ∃ c cs, (Number.whole n).chars = c :: cs ∧ (c = '-' ∨ c.isDigit = true) := by
  obtain ⟨c, cs, hcs⟩ := List.exists_cons_of_ne_nil (Text.toList_toString_ne_nil n)
  have hstart := Text.isDigit_or_minus_of_mem_toString (hcs ▸ List.mem_cons_self)
  exact ⟨c, cs, hcs, hstart.symm⟩

theorem scanNumber_whole {n : Int} (h : FitsWord n) {rest : List Char} (hrest : Ends rest) :
    scanNumber ((Number.whole n).chars ++ rest) = .ok (.whole n, rest) := by
  obtain ⟨hleast, hgreatest⟩ := h
  by_cases hsign : 0 ≤ n
  · have hvalue : ((n.toNat : Nat) : Int) = n := Int.toNat_of_nonneg hsign
    rw [chars_natural hsign, scanNumber, numeral_toDigits n.toNat hrest]
    simp only [bind, Except.bind, number?_natural (show n.toNat < Text.sizeBound by omega), hvalue]
    rfl
  · have hvalue : -((-n).toNat : Int) = n := by omega
    rw [chars_negative (by omega), List.cons_append, scanNumber, numeral_minus _ hrest]
    simp only [bind, Except.bind, number?_negative (show 0 < (-n).toNat by omega) (by omega), hvalue]
    rfl

end Dialogue.Json
