import Dialogue.Json.Printer
import Dialogue.Json.Scan
/-!
# Quoted texts read back

Each character of a text is written as itself or as an escape, and reading goes over either in one
step.
-/

namespace Dialogue.Json

/-- Of the control characters there are few enough to go through. -/
theorem hexNumber?_controlEscape :
    ∀ n < 0x20, (controlEscape (Char.ofNat n)).length = 6 ∧
      (controlEscape (Char.ofNat n)).take 2 = ['\\', 'u'] ∧
      Text.hexNumber? ((controlEscape (Char.ofNat n)).drop 2) = some n := by
  decide +kernel

theorem controlEscape_eq {c : Char} (h : c.toNat < 0x20) :
    ∃ x y z u, controlEscape c = ['\\', 'u', x, y, z, u] ∧
      Text.hexNumber? [x, y, z, u] = some c.toNat := by
  obtain ⟨hlength, hmark, hnumber⟩ := hexNumber?_controlEscape c.toNat h
  rw [Char.ofNat_toNat] at hlength hmark hnumber
  match hescape : controlEscape c, hlength with
  | [a, b, x, y, z, u], _ =>
      rw [hescape] at hmark hnumber
      cases hmark
      exact ⟨x, y, z, u, rfl, hnumber⟩

theorem unquote_controlEscape {c : Char} (h : c.toNat < 0x20) (done rest : List Char) :
    unquote done none (controlEscape c ++ rest) = unquote (c :: done) none rest := by
  obtain ⟨x, y, z, u, hescape, hnumber⟩ := controlEscape_eq h
  have hfirst : isFirstHalf c.toNat = false := by
    rw [isFirstHalf, decide_eq_false (by omega), Bool.false_and]
  have hsecond : isSecondHalf c.toNat = false := by
    rw [isSecondHalf, decide_eq_false (by omega), Bool.false_and]
  simp [hescape, unquote, hnumber, hfirst, hsecond]

theorem unquote_plain {c : Char} (hquote : c ≠ '"') (hslash : c ≠ '\\') (h : ¬ c.toNat < 0x20)
    (done rest : List Char) : unquote done none (c :: rest) = unquote (c :: done) none rest := by
  simp [unquote, hquote, hslash, h]

theorem unquote_escape (done : List Char) (c : Char) (rest : List Char) :
    unquote done none (escape c ++ rest) = unquote (c :: done) none rest := by
  by_cases hshort : c ∈ ['"', '\\', '\x08', '\x0c', '\n', '\r', '\t']
  · simp only [List.mem_cons, List.not_mem_nil, or_false] at hshort
    rcases hshort with rfl | rfl | rfl | rfl | rfl | rfl | rfl <;> rfl
  · simp only [List.mem_cons, List.not_mem_nil, or_false, not_or] at hshort
    obtain ⟨hquote, hslash, hb, hf, hn, hr, ht⟩ := hshort
    by_cases hcontrol : c.toNat < 0x20
    · rw [escape, if_neg hquote, if_neg hslash, if_neg hb, if_neg hf, if_neg hn, if_neg hr,
        if_neg ht, if_pos hcontrol]
      exact unquote_controlEscape hcontrol done rest
    · rw [escape, if_neg hquote, if_neg hslash, if_neg hb, if_neg hf, if_neg hn, if_neg hr,
        if_neg ht, if_neg hcontrol]
      exact unquote_plain hquote hslash hcontrol done rest

theorem quotedText_escaped (s : String) (rest : List Char) :
    quotedText (s.toList.flatMap escape ++ '"' :: rest) = .ok (s, rest) := by
  have hread : ∀ (cs done : List Char), unquote done none (cs.flatMap escape ++ '"' :: rest) =
      .ok (String.ofList (done.reverse ++ cs), rest) := by
    intro cs
    -- What was read so far waits in `done`, the last character first.
    induction cs with
    | nil => intro done; simp [unquote]
    | cons c cs ih =>
        intro done
        rw [List.flatMap_cons, List.append_assoc, unquote_escape, ih]
        simp
  rw [quotedText, hread]
  simp

end Dialogue.Json
