import Dialogue.Text.Search
import Mathlib.Data.List.Infix
/-!
# The first place of a pattern

A text is split at the first place of a pattern: nothing in front of that place begins with the pattern
(`after?_of_splitAt?`), and a text that is not split begins with it nowhere.

A pattern whose first character does not come again in it cannot overlap with itself.  So the split at
such a pattern is known from its parts: the pattern must not stand in the part before
(`splitAt?_of_not_isInfix`).
-/

namespace Dialogue.Text

variable {p : Char} {ps cs : List Char}

@[simp] theorem after?_append (start rest : List Char) : after? start (start ++ rest) = some rest :=
  after?_eq_some.2 rfl

theorem after?_cons_of_ne {c : Char} (h : c ≠ p) (cs : List Char) :
    after? (p :: ps) (c :: cs) = none := by
  rw [after?, if_neg (Ne.symm h)]

theorem splitAt?_of_after? {pattern rest : List Char} {c : Char}
    (h : after? pattern (c :: cs) = some rest) :
    splitAt? pattern (c :: cs) = some ([], rest) := by
  rw [splitAt?, h]

theorem splitAt?_of_after?_eq_none {pattern : List Char} {c : Char}
    (h : after? pattern (c :: cs) = none) :
    splitAt? pattern (c :: cs) = (splitAt? pattern cs).map (Prod.map (c :: ·) id) := by
  rw [splitAt?, h]
  rfl

/-- Characters that cannot begin a pattern belong to the part before it. -/
theorem splitAt?_append_of_notMem {xs : List Char} (h : p ∉ xs) (cs : List Char) :
    splitAt? (p :: ps) (xs ++ cs) = (splitAt? (p :: ps) cs).map (Prod.map (xs ++ ·) id) := by
  induction xs with
  | nil =>
      have hid : Prod.map ([] ++ · : List Char → List Char) (id : List Char → List Char) = id := rfl
      rw [hid, Option.map_id]
      rfl
  | cons x xs ih =>
      obtain ⟨hne, hrest⟩ := not_or.1 (mt List.mem_cons.2 h)
      rw [List.cons_append, splitAt?_of_after?_eq_none (after?_cons_of_ne (Ne.symm hne) _), ih hrest,
        Option.map_map]
      rfl

/-- Where a pattern begins in front of itself, it ends in front of itself too, for the character that
it begins with does not come again in it. -/
theorem isInfix_of_append_eq {before behind rest : List Char} (hp : p ∉ ps) (hne : before ≠ [])
    (h : before ++ (p :: ps) ++ behind = (p :: ps) ++ rest) : (p :: ps) <:+: before := by
  rw [List.append_assoc] at h
  rcases List.append_eq_append_iff.1 h with ⟨overlap, hpattern, hoverlap⟩ | ⟨tail, hbefore, -⟩
  · -- the pattern would begin again inside of itself
    cases overlap with
    | nil =>
        rw [List.append_nil] at hpattern
        exact hpattern ▸ List.infix_rfl
    | cons q overlap =>
        obtain rfl : p = q := List.head_eq_of_cons_eq hoverlap
        cases before with
        | nil => exact absurd rfl hne
        | cons b before =>
            have hps : ps = before ++ p :: overlap := List.tail_eq_of_cons_eq hpattern
            exact absurd (hps ▸ List.mem_append_right _ List.mem_cons_self) hp
  · exact ⟨[], tail, by rw [hbefore, List.nil_append]⟩

theorem splitAt?_of_not_isInfix {before : List Char} (hp : p ∉ ps)
    (h : ¬ (p :: ps) <:+: before) (behind : List Char) :
    splitAt? (p :: ps) (before ++ (p :: ps) ++ behind) = some (before, behind) := by
  induction before with
  | nil => exact splitAt?_of_after? (after?_append (p :: ps) behind)
  | cons c before ih =>
      have hnone : after? (p :: ps) (c :: before ++ (p :: ps) ++ behind) = none := by
        rw [Option.eq_none_iff_forall_ne_some]
        intro rest hrest
        exact h (isInfix_of_append_eq hp (List.cons_ne_nil c before) (after?_eq_some.1 hrest))
      rw [List.cons_append, List.cons_append] at hnone ⊢
      have hbefore : ¬ (p :: ps) <:+: before :=
        fun hstands => h (hstands.trans (List.suffix_cons c before).isInfix)
      rw [splitAt?_of_after?_eq_none hnone, ih hbefore]
      rfl

theorem after?_of_splitAt?_eq_none {pattern : List Char} (h : splitAt? pattern cs = none)
    (before : List Char) {rest : List Char} (hcs : cs = before ++ rest) :
    after? pattern rest = none := by
  induction cs generalizing before with
  | nil =>
      obtain ⟨-, rfl⟩ := List.append_eq_nil_iff.1 hcs.symm
      exact Option.map_eq_none_iff.1 h
  | cons c cs ih =>
      cases hafter : after? pattern (c :: cs) with
      | some behind =>
          rw [splitAt?_of_after? hafter] at h
          cases h
      | none =>
          rw [splitAt?_of_after?_eq_none hafter, Option.map_eq_none_iff] at h
          cases before with
          | nil =>
              obtain rfl : c :: cs = rest := hcs
              exact hafter
          | cons b before => exact ih h before (List.tail_eq_of_cons_eq hcs)

/-- In front of the place at which a text is split, it begins with the pattern nowhere. -/
theorem after?_of_splitAt? {pattern before behind : List Char}
    (h : splitAt? pattern cs = some (before, behind)) (front : List Char) {rest : List Char}
    (hbefore : before = front ++ rest) (hrest : rest ≠ []) :
    after? pattern (rest ++ (pattern ++ behind)) = none := by
  induction cs generalizing before front with
  | nil =>
      obtain ⟨_, -, heq⟩ := Option.map_eq_some_iff.1 h
      obtain ⟨rfl, -⟩ := Prod.mk.inj heq
      exact absurd (List.append_eq_nil_iff.1 hbefore.symm).2 hrest
  | cons c cs ih =>
      have hwhole := splitAt?_append h
      cases hafter : after? pattern (c :: cs) with
      | some other =>
          rw [splitAt?_of_after? hafter] at h
          obtain ⟨rfl, -⟩ := Prod.mk.inj (Option.some.inj h)
          exact absurd (List.append_eq_nil_iff.1 hbefore.symm).2 hrest
      | none =>
          rw [splitAt?_of_after?_eq_none hafter] at h
          obtain ⟨⟨before', behind'⟩, hparts, heq⟩ := Option.map_eq_some_iff.1 h
          obtain ⟨rfl, rfl⟩ := Prod.mk.inj heq
          cases front with
          | nil =>
              rw [hbefore, List.nil_append, List.append_assoc] at hwhole
              exact hwhole ▸ hafter
          | cons b front => exact ih hparts front (List.tail_eq_of_cons_eq hbefore)

theorem splitAt?_eq_none_iff {pattern : List Char} :
    splitAt? pattern cs = none ↔ ¬ pattern <:+: cs := by
  constructor
  · rintro h ⟨front, rest, hcs⟩
    have hnone := after?_of_splitAt?_eq_none h front (hcs.symm.trans (List.append_assoc _ _ _))
    rw [after?_append] at hnone
    cases hnone
  · intro h
    rw [Option.eq_none_iff_forall_ne_some]
    rintro ⟨before, behind⟩ hsplit
    exact h ⟨before, behind, (splitAt?_append hsplit).symm⟩

theorem not_isInfix_of_splitAt? {pattern before behind : List Char} (hp : pattern ≠ [])
    (h : splitAt? pattern cs = some (before, behind)) : ¬ pattern <:+: before := by
  rintro ⟨front, rest, hbefore⟩
  have hne : pattern ++ rest ≠ [] := List.append_ne_nil_of_left_ne_nil hp rest
  have hnone := after?_of_splitAt? h front (hbefore.symm.trans (List.append_assoc _ _ _)) hne
  rw [List.append_assoc, after?_append] at hnone
  cases hnone

/-! ### One character -/

theorem notMem_of_splitAt?_singleton_eq_none (h : splitAt? [p] cs = none) : p ∉ cs := by
  rw [← List.singleton_infix_iff]
  exact splitAt?_eq_none_iff.1 h

theorem notMem_of_splitAt?_singleton {before behind : List Char}
    (h : splitAt? [p] cs = some (before, behind)) : p ∉ before := by
  rw [← List.singleton_infix_iff]
  exact not_isInfix_of_splitAt? (List.cons_ne_nil p []) h

end Dialogue.Text
