import Mathlib.Data.List.Forall2
import Mathlib.Data.List.Nodup
/-!
# Leaving out repetitions

`List.eraseDupsBy` keeps the first of several elements that repeat each other.  What it keeps is said
by membership, by a filter and, where elements repeat each other that agree in a key, key by key.
-/

namespace Dialogue

section

variable {α : Type} {r : α → α → Bool}

theorem mem_of_mem_eraseDupsBy {a : α} : ∀ {as : List α}, a ∈ as.eraseDupsBy r → a ∈ as
  | [], hmem => hmem
  | b :: bs, hmem => by
      rw [List.eraseDupsBy_cons] at hmem
      rcases List.mem_cons.1 hmem with rfl | hmem
      · exact List.mem_cons_self
      · have hrest := mem_of_mem_eraseDupsBy hmem
        exact List.mem_cons_of_mem _ (List.mem_filter.1 hrest).1
termination_by as => as.length
decreasing_by exact Nat.lt_succ_of_le (List.length_filter_le _ _)

/-- Where only alike elements repeat each other, repetitions may be left out before others are. -/
theorem filter_eraseDupsBy {p : α → Bool} (h : ∀ a b, r a b = true → p a = p b) :
    ∀ as : List α, (as.eraseDupsBy r).filter p = (as.filter p).eraseDupsBy r
  | [] => rfl
  | b :: bs => by
      have ih := filter_eraseDupsBy h (bs.filter fun c => r c b = false)
      rw [List.eraseDupsBy_cons]
      cases hb : p b with
      | true =>
          rw [List.filter_cons_of_pos hb, List.filter_cons_of_pos hb, List.eraseDupsBy_cons, ih,
            List.filter_comm]
      | false =>
          -- What repeats `b` is left out by the filter as `b` is.
          have hkept : (bs.filter fun c => r c b = false).filter p = bs.filter p := by
            rw [List.filter_filter]
            refine List.filter_congr fun c _ => ?_
            cases hc : p c with
            | false => rfl
            | true =>
                have hnot : r c b = false := by
                  by_contra hrepeats
                  have hsame := h c b (by simpa using hrepeats)
                  rw [hc, hb] at hsame
                  cases hsame
                simp [hnot]
          rw [List.filter_cons_of_neg (by simp [hb]), List.filter_cons_of_neg (by simp [hb]), ih,
            hkept]
termination_by as => as.length
decreasing_by exact Nat.lt_succ_of_le (List.length_filter_le _ _)

theorem eraseDupsBy_of_unrepeated {as : List α} (h : ∀ a ∈ as, ∀ b, r a b = false) :
    as.eraseDupsBy r = as := by
  induction as with
  | nil => rfl
  | cons b bs ih =>
      have hbs : bs.filter (fun c => r c b = false) = bs :=
        List.filter_eq_self.2 fun c hc => by simp [h c (List.mem_cons_of_mem b hc) b]
      rw [List.eraseDupsBy_cons, hbs, ih fun c hc => h c (List.mem_cons_of_mem b hc)]

theorem nodup_eraseDups {κ : Type} [DecidableEq κ] : ∀ keys : List κ, keys.eraseDups.Nodup
  | [] => List.nodup_nil
  | key :: keys => by
      rw [List.eraseDups_cons]
      refine List.nodup_cons.2 ⟨fun hmem => ?_, nodup_eraseDups _⟩
      have hne := (List.mem_filter.1 (List.mem_eraseDups.1 hmem)).2
      simp at hne
termination_by keys => keys.length
decreasing_by exact Nat.lt_succ_of_le (List.length_filter_le _ _)

theorem getElem?_eraseDups_iff {κ : Type} [DecidableEq κ] {keys : List κ} {key : κ} {k : Nat} :
    keys.eraseDups[k]? = some key ↔
      ∃ before behind, keys = before ++ key :: behind ∧ key ∉ before ∧
        before.eraseDups.length = k := by
  have hplace : ∀ before behind : List κ, key ∉ before →
      (before ++ key :: behind).eraseDups[before.eraseDups.length]? = some key := by
    intro before behind hnew
    have hkept : (key :: behind).removeAll before = key :: behind.removeAll before := by
      simp [List.removeAll, hnew]
    rw [List.eraseDups_append, hkept, List.eraseDups_cons]
    simp
  constructor
  · intro h
    have hmem : key ∈ keys := List.mem_eraseDups.1 (List.mem_of_getElem? h)
    obtain ⟨before, behind, rfl, hnew⟩ := List.eq_append_cons_of_mem hmem
    refine ⟨before, behind, rfl, hnew, ?_⟩
    obtain ⟨hk, heq⟩ := List.getElem?_eq_some_iff.1 h
    obtain ⟨hk', heq'⟩ := List.getElem?_eq_some_iff.1 (hplace before behind hnew)
    exact (List.Nodup.getElem_inj_iff (nodup_eraseDups _)).1 (heq'.trans heq.symm)
  · rintro ⟨before, behind, rfl, hnew, rfl⟩
    exact hplace before behind hnew

/-- If elements repeat each other that agree in a key, there remains one for each key, the first. -/
theorem forall₂_eraseDupsBy {κ : Type} [DecidableEq κ] {key : α → κ} :
    ∀ {as : List α}, (∀ a ∈ as, ∀ b ∈ as, r a b = decide (key a = key b)) →
      List.Forall₂ (fun k a => as.find? (fun b => key b = k) = some a)
        (as.map key).eraseDups (as.eraseDupsBy r)
  | [], _ => .nil
  | b :: bs, h => by
      let others := bs.filter fun c => key c ≠ key b
      have hothers : bs.filter (fun c => r c b = false) = others := by
        refine List.filter_congr fun c hc => ?_
        rw [h c (List.mem_cons_of_mem b hc) b List.mem_cons_self]
        simp
      have ih : List.Forall₂ (fun k a => others.find? (fun b => key b = k) = some a)
          (others.map key).eraseDups (others.eraseDupsBy r) :=
        forall₂_eraseDupsBy fun a ha c hc => h a (List.mem_cons_of_mem b (List.mem_filter.1 ha).1) c
          (List.mem_cons_of_mem b (List.mem_filter.1 hc).1)
      have hkeys : (bs.map key).filter (fun k => !k == key b) = others.map key := by
        rw [List.filter_map]
        congr 1
        exact List.filter_congr fun c _ => by simp [beq_eq_decide]
      rw [List.map_cons, List.eraseDups_cons, List.eraseDupsBy_cons, hothers, hkeys]
      refine .cons (by simp) (ih.imp fun k a hfirst => ?_)
      -- The first of another key comes behind `b`, and what was left out had the key of `b`.
      have hkey : key a = k := by simpa using List.find?_some hfirst
      have hne : key b ≠ k := by
        have hmem := (List.mem_filter.1 (List.mem_of_find?_eq_some hfirst)).2
        rw [← hkey]
        exact Ne.symm (by simpa using hmem)
      rw [List.find?_cons_of_neg (by simpa using hne), ← hfirst, List.find?_filter]
      congr 1
      funext c
      by_cases hc : key c = k
      · simp [hc, Ne.symm hne]
      · simp [hc]
termination_by as => as.length
decreasing_by exact Nat.lt_succ_of_le (List.length_filter_le _ _)

/-- Where the elements of two lists go together one by one, each of the second has one of the first. -/
theorem exists_mem_of_forall₂ {β : Type} {R : α → β → Prop} {as : List α} {bs : List β}
    (h : List.Forall₂ R as bs) {b : β} (hb : b ∈ bs) : ∃ a ∈ as, R a b := by
  induction h with
  | nil => exact absurd hb List.not_mem_nil
  | @cons a c as bs hac _ ih =>
      rcases List.mem_cons.1 hb with rfl | hmem
      · exact ⟨a, List.mem_cons_self, hac⟩
      · obtain ⟨a', ha', hR⟩ := ih hmem
        exact ⟨a', List.mem_cons_of_mem a ha', hR⟩

theorem exists_find?_of_findSome? {β : Type} {p : α → Bool} {f : α → Option β} {g : α → β} {b : β}
    {as : List α} (hf : ∀ a c, f a = some c → p a = true ∧ c = g a)
    (hp : ∀ a, p a = true → f a ≠ none) (h : as.findSome? f = some b) :
    ∃ a, as.find? p = some a ∧ b = g a := by
  obtain ⟨before, a, behind, rfl, ha, hbefore⟩ := List.findSome?_eq_some_iff.1 h
  obtain ⟨hpa, hb⟩ := hf a b ha
  refine ⟨a, ?_, hb⟩
  have hnone : before.find? p = none :=
    List.find?_eq_none.2 fun c hc hpc => hp c hpc (hbefore c hc)
  rw [List.find?_append, hnone, Option.none_or, List.find?_cons_of_pos hpa]

@[simp] theorem flatMap_const_nil {β : Type} (as : List α) :
    (as.flatMap fun _ => ([] : List β)) = [] :=
  List.flatMap_eq_nil_iff.2 fun _ _ => rfl

theorem flatMap_ite_singleton {β : Type} (as : List α) (p : α → Bool) (f : α → β) :
    (as.flatMap fun a => if p a = true then [f a] else []) = (as.filter p).map f := by
  induction as with
  | nil => rfl
  | cons a as ih => cases h : p a <;> simp [h, ih]

theorem flatMap_ite_nil {β : Type} (as : List α) (p : α → Bool) (f : α → β) :
    (as.flatMap fun a => if p a = true then [] else [f a]) =
      (as.filter fun a => !p a).map f := by
  rw [← flatMap_ite_singleton]
  congr 1
  funext a
  cases p a <;> rfl

end
end Dialogue
