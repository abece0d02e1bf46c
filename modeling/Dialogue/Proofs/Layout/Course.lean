import Dialogue.Proofs.Layout.Standing
/-!
# The course of both walks

`Course` follows a loop from state to state, without a bound on its steps.  Both walks come to
their end on every graph, the first one scans each list of children at most once, and the second one
reads each place in a list of children at most once and never has more nodes on its path than the
tree has.
-/

namespace Dialogue.Layout

/-! ## Courses of loops -/

/-- A loop has gone from one state to another.  The states at which it took a step are listed, the
first one first. -/
inductive Course {σ : Type} (step : σ → Option σ) : σ → List σ → σ → Prop where
  | here (s : σ) : Course step s [] s
  | onward {s s' last : σ} {passed : List σ} (hstep : step s = some s')
      (hcourse : Course step s' passed last) : Course step s (s :: passed) last

/-- The loop comes to its end: it gets to a state at which there is no step to take, and no course
of it takes more steps than the bound says. -/
structure ComesToEnd {σ : Type} (step : σ → Option σ) (first last : σ) (bound : Nat) : Prop where
  arrives : ∃ passed, Course step first passed last
  stops : step last = none
  bounded : ∀ passed s, Course step first passed s → passed.length ≤ bound

section Course

variable {σ ρ : Type} {step : σ → Option σ} {s last : σ} {passed : List σ} {P : σ → Prop}

theorem exists_course_iterate (step : σ → Option σ) (budget : Nat) (s : σ) :
    ∃ passed, Course step s passed (iterate step budget s) := by
  induction budget generalizing s with
  | zero => exact ⟨[], .here s⟩
  | succ budget ih =>
      unfold iterate
      cases hnext : step s with
      | none => exact ⟨[], .here s⟩
      | some s' =>
          obtain ⟨passed, hcourse⟩ := ih s'
          exact ⟨s :: passed, .onward hnext hcourse⟩

theorem Course.keeps (hstep : ∀ {s s'}, P s → step s = some s' → P s')
    (hcourse : Course step s passed last) (h : P s) : P last := by
  induction hcourse with
  | here s => exact h
  | onward hnext _ ih => exact ih (hstep h hnext)

theorem Course.length_add_le {μ : σ → Nat}
    (hstep : ∀ {s s'}, P s → step s = some s' → P s' ∧ μ s' < μ s)
    (hcourse : Course step s passed last) (h : P s) : passed.length + μ last ≤ μ s := by
  induction hcourse with
  | here s => simp
  | onward hnext _ ih =>
      obtain ⟨hs', hlt⟩ := hstep h hnext
      have hle := ih hs'
      rw [List.length_cons]
      omega

/-- An iteration whose steps keep an invariant and lower a measure comes to its end. -/
theorem comesToEnd_iterate {μ : σ → Nat}
    (hstep : ∀ {s s'}, P s → step s = some s' → P s' ∧ μ s' < μ s) (h : P s) {budget : Nat}
    (hbudget : μ s ≤ budget) : ComesToEnd step s (iterate step budget s) budget where
  arrives := exists_course_iterate step budget s
  stops := (iterate_spec P μ hstep h hbudget).2
  bounded := by
    intro passed s' hcourse
    have hle := hcourse.length_add_le hstep h
    omega

/-- If what a step reads is new at that step and counts as read (`R`) from then on, nothing is read
twice. -/
theorem Course.nodup_reads {read? : σ → Option ρ} {R : σ → ρ → Prop}
    (hkeep : ∀ {s s'}, P s → step s = some s' → P s')
    (hstays : ∀ {s s' r}, P s → step s = some s' → R s r → R s' r)
    (hfresh : ∀ {s r}, P s → read? s = some r → ¬ R s r)
    (hread : ∀ {s s' r}, P s → step s = some s' → read? s = some r → R s' r)
    (hcourse : Course step s passed last) (h : P s) :
    (passed.filterMap read?).Nodup ∧ ∀ r ∈ passed.filterMap read?, ¬ R s r := by
  induction hcourse with
  | here s => exact ⟨List.nodup_nil, by simp⟩
  | @onward s s' last passed hnext _ ih =>
      obtain ⟨hnodup, hlater⟩ := ih (hkeep h hnext)
      have hbefore : ∀ r ∈ passed.filterMap read?, ¬ R s r :=
        fun r hr hu => hlater r hr (hstays h hnext hu)
      cases hr : read? s with
      | none =>
          rw [List.filterMap_cons_none hr]
          exact ⟨hnodup, hbefore⟩
      | some r =>
          rw [List.filterMap_cons_some hr]
          refine ⟨List.nodup_cons.2 ⟨fun hmem => ?_, hnodup⟩, ?_⟩
          · exact hlater r hmem (hread h hnext hr)
          · intro other hother
            rcases List.mem_cons.1 hother with rfl | hother
            · exact hfresh h hr
            · exact hbefore other hother

end Course

/-! ## The walk with a stack -/

namespace Discovery

variable {t : Tree} {d d' : Discovery} {id : String}

def scanned? (d : Discovery) : Option String :=
  match d.stack with
  | [] => none
  | (id, _) :: _ => if d.hasReached id then none else some id

theorem scanned?_eq_some_iff : d.scanned? = some id ↔
    d.hasReached id = false ∧ ∃ depth stack, d.stack = (id, depth) :: stack := by
  unfold scanned?
  cases d.stack with
  | nil => simp
  | cons entry stack =>
      obtain ⟨top, depth⟩ := entry
      cases hreached : d.hasReached top with
      | false =>
          simp only [hreached, Bool.false_eq_true, if_false, Option.some.injEq]
          constructor
          · rintro rfl
            exact ⟨hreached, depth, stack, rfl⟩
          · rintro ⟨-, depth', stack', heq⟩
            cases heq
            rfl
      | true =>
          simp only [hreached, if_true, reduceCtorEq, false_iff]
          rintro ⟨hnew, depth', stack', heq⟩
          cases heq
          rw [hreached] at hnew
          cases hnew

theorem hasReached_step (hstep : step t d = some d') (h : d.hasReached id = true) :
    d'.hasReached id = true := by
  obtain ⟨top, depth, stack, -, ⟨-, rfl⟩ | ⟨-, rfl⟩⟩ := step_cases hstep
  · exact h
  · simp [hasReached_takeUp, h]

theorem hasReached_of_scanned? (hstep : step t d = some d') (h : d.scanned? = some id) :
    d'.hasReached id = true := by
  obtain ⟨hnew, depth', stack', hstack'⟩ := scanned?_eq_some_iff.1 h
  obtain ⟨top, depth, stack, hstack, hcases⟩ := step_cases hstep
  rw [hstack] at hstack'
  cases hstack'
  rcases hcases with ⟨hreached, -⟩ | ⟨-, rfl⟩
  · rw [hnew] at hreached
    cases hreached
  · simp [hasReached_takeUp]

theorem comesToEnd (t : Tree) : ComesToEnd (step t) (start t) (finish t) (budget t) :=
  comesToEnd_iterate (fun h hstep => ⟨sound_step h hstep, remaining_step h hstep⟩) (sound_start t)
    (remaining_start t)

theorem nodup_scanned {passed : List Discovery} (h : Course (step t) (start t) passed d) :
    (passed.filterMap scanned?).Nodup :=
  (h.nodup_reads (P := fun _ => True) (R := fun d id => d.hasReached id = true)
    (fun _ _ => trivial) (fun _ hstep hused => hasReached_step hstep hused)
    (fun _ hread => by simp [(scanned?_eq_some_iff.1 hread).1])
    (fun _ hstep hread => hasReached_of_scanned? hstep hread) trivial).1

end Discovery

/-! ## The walk along paths -/

namespace Traversal

variable {t : Tree} {w w' : Traversal} {id child : String} {more : List String}
  {path : List (String × List String)} {k : Nat}

/-- The place that the next step reads in a list of children: the node that the path ends in, and
how many of its children have been read before. -/
def place? (t : Tree) (w : Traversal) : Option (String × Nat) :=
  match w.path with
  | (id, _ :: more) :: _ => some (id, (t.children id).length - (more.length + 1))
  | _ => none

/-- The place has been read: its node has been met, and if it is still on the path, what is left to
look at there stands behind the place. -/
def HasRead (t : Tree) (w : Traversal) (place : String × Nat) : Prop :=
  place.1 ∈ w.preorder ∧ ∀ rest, (place.1, rest) ∈ w.path →
    rest.length + place.2 < (t.children place.1).length

def LeavesEnds (t : Tree) (w : Traversal) : Prop :=
  ∀ id rest, (id, rest) ∈ w.path → rest <:+ t.children id

theorem leavesEnds_start (t : Tree) : LeavesEnds t (start t) := by
  intro id rest hmem
  unfold start at hmem
  split at hmem
  · cases List.mem_singleton.1 hmem
    exact List.suffix_rfl
  · exact absurd hmem List.not_mem_nil

theorem LeavesEnds.pass (h : LeavesEnds t w) (hpath : w.path = (id, child :: more) :: path) :
    ∀ other rest, (other, rest) ∈ (id, more) :: path → rest <:+ t.children other := by
  intro other rest hmem
  rcases List.mem_cons.1 hmem with heq | hmem
  · cases heq
    exact (List.suffix_cons child more).trans (h id _ (hpath ▸ List.mem_cons_self))
  · exact h other rest (hpath ▸ List.mem_cons_of_mem _ hmem)

theorem leavesEnds_step (h : LeavesEnds t w) (hstep : step t w = some w') : LeavesEnds t w' := by
  cases moved_of_step hstep with
  | leave hpath => exact fun other rest hmem => h other rest (hpath ▸ List.mem_cons_of_mem _ hmem)
  | descend hpath hmark =>
      intro other rest hmem
      rcases List.mem_cons.1 hmem with heq | hmem
      · cases heq
        exact List.suffix_rfl
      · exact h.pass hpath other rest hmem
  | skip hpath hmark => exact h.pass hpath
  | join hpath hmark => exact h.pass hpath

theorem LeavesEnds.place?_eq_some_iff (h : LeavesEnds t w) : place? t w = some (id, k) ↔
    ∃ child more path, w.path = (id, child :: more) :: path ∧
      (t.children id).length = k + (more.length + 1) ∧ (t.children id)[k]? = some child := by
  unfold place?
  split
  next top child more path hpath =>
    obtain ⟨before, hchildren⟩ := h top (child :: more) (hpath ▸ List.mem_cons_self)
    have hlength : (t.children top).length = before.length + (more.length + 1) := by
      rw [← hchildren, List.length_append, List.length_cons]
    constructor
    · intro heq
      obtain ⟨rfl, hk⟩ := Prod.mk.inj (Option.some.inj heq)
      obtain rfl : before.length = k := by omega
      refine ⟨child, more, path, hpath, hlength, ?_⟩
      rw [← hchildren, List.getElem?_append_right (Nat.le_refl _), Nat.sub_self]
      rfl
    · rintro ⟨child', more', path', hpath', hk, -⟩
      rw [hpath] at hpath'
      cases hpath'
      rw [hk, Nat.add_sub_cancel]
  next hnone =>
    constructor
    · intro heq
      cases heq
    · rintro ⟨child, more, path, hpath, -⟩
      exact absurd hpath (hnone id child more path)

/-! ### Nothing is read twice -/

/-- A step that looks at a child leaves the rest of its list on the path.  A node that is new to the
path has not been met before. -/
theorem hasRead_of_look (hsound : Sound t w) (hpath : w.path = (id, child :: more) :: path)
    (hstep : step t w = some w') {place : String × Nat} (hmet : place.1 ∈ w.preorder)
    (hrest : ∀ rest, (place.1, rest) ∈ (id, more) :: path →
      rest.length + place.2 < (t.children place.1).length) : HasRead t w' place := by
  obtain ⟨hmark, rfl⟩ | ⟨-, rfl⟩ | ⟨-, rfl⟩ := look_cases hpath hstep
  · have hnew : child ∉ w.preorder := by
      rw [← hsound.met_iff, hasMet, hmark]
      simp [Mark.isMet]
    refine ⟨List.mem_cons_of_mem _ hmet, fun rest hmem => ?_⟩
    rcases List.mem_cons.1 hmem with heq | hmem
    · exact absurd ((Prod.mk.inj heq).1 ▸ hmet) hnew
    · exact hrest rest hmem
  · exact ⟨hmet, hrest⟩
  · exact ⟨hmet, hrest⟩

theorem hasRead_step (hsound : Sound t w) (hstep : step t w = some w') {place : String × Nat}
    (h : HasRead t w place) : HasRead t w' place := by
  obtain ⟨hmet, hplace⟩ := h
  cases hpath : w.path with
  | nil =>
      rw [step, hpath] at hstep
      cases hstep
  | cons entry path =>
      obtain ⟨id, rest⟩ := entry
      have hbelow : ∀ rest, (place.1, rest) ∈ path →
          rest.length + place.2 < (t.children place.1).length :=
        fun rest hmem => hplace rest (hpath ▸ List.mem_cons_of_mem _ hmem)
      cases rest with
      | nil =>
          rw [step, hpath] at hstep
          cases hstep
          exact ⟨hmet, hbelow⟩
      | cons child more =>
          refine hasRead_of_look hsound hpath hstep hmet fun rest hmem => ?_
          rcases List.mem_cons.1 hmem with heq | hmem
          · obtain ⟨hid, rfl⟩ := Prod.mk.inj heq
            have htop := hplace (child :: rest) (by rw [hpath, hid]; exact List.mem_cons_self)
            rw [List.length_cons] at htop
            omega
          · exact hbelow rest hmem

theorem not_hasRead_of_place? (hends : LeavesEnds t w) {place : String × Nat}
    (h : place? t w = some place) : ¬ HasRead t w place := by
  obtain ⟨child, more, path, hpath, hlength, -⟩ := hends.place?_eq_some_iff.1 h
  intro hread
  have htop := hread.2 (child :: more) (hpath ▸ List.mem_cons_self)
  rw [List.length_cons] at htop
  omega

theorem hasRead_of_place? (hsound : Sound t w) (hmarked : Marked w) (hends : LeavesEnds t w)
    (hstep : step t w = some w') {place : String × Nat} (h : place? t w = some place) :
    HasRead t w' place := by
  obtain ⟨child, more, path, hpath, hlength, -⟩ := hends.place?_eq_some_iff.1 h
  have hmet : place.1 ∈ w.preorder :=
    hsound.path_met (place.1, child :: more) (hpath ▸ List.mem_cons_self)
  refine hasRead_of_look hsound hpath hstep hmet fun rest hmem => ?_
  rcases List.mem_cons.1 hmem with heq | hmem
  · rw [(Prod.mk.inj heq).2]
    omega
  · -- the path passes no node twice
    have hnodup := openIds_of_path hpath ▸ hmarked.open_nodup
    exact absurd (List.mem_map_of_mem (f := (·.1)) hmem) (List.nodup_cons.1 hnodup).1

theorem comesToEnd (t : Tree) : ComesToEnd (step t) (start t) (finish t) (budget t) :=
  comesToEnd_iterate (fun h hstep => ⟨sound_step h hstep, remaining_step h hstep⟩) (sound_start t)
    (remaining_start t)

theorem kept_leavesEnds_step (h : Kept t w ∧ LeavesEnds t w) (hstep : step t w = some w') :
    Kept t w' ∧ LeavesEnds t w' :=
  ⟨kept_step h.1 hstep, leavesEnds_step h.2 hstep⟩

theorem nodup_places {passed : List Traversal} (h : Course (step t) (start t) passed w) :
    (passed.filterMap (place? t)).Nodup :=
  (h.nodup_reads (P := fun w => Kept t w ∧ LeavesEnds t w) (R := HasRead t)
    kept_leavesEnds_step (fun hkept hstep hused => hasRead_step hkept.1.sound hstep hused)
    (fun hkept hread => not_hasRead_of_place? hkept.2 hread)
    (fun hkept hstep hread =>
      hasRead_of_place? hkept.1.sound hkept.1.marked hkept.2 hstep hread)
    ⟨kept_start t, leavesEnds_start t⟩).1

/-- The path passes no node twice, so it is never longer than the tree has nodes. -/
theorem length_path_le (hsound : Sound t w) (hmarked : Marked w) :
    w.path.length ≤ t.nodes.size := by
  have hsubset : w.openIds ⊆ t.nodes.keys := by
    intro id hid
    obtain ⟨entry, hentry, rfl⟩ := List.mem_map.1 hid
    exact (hsound.preorder_reaches _ (hsound.path_met entry hentry)).mem_keys
  have hle := hmarked.open_nodup.length_le_of_subset hsubset
  rw [openIds, List.length_map] at hle
  exact hle.trans (List.length_map _).le

end Traversal

/-- Both walks come to their end on every graph, whatever cycles it has.  On its course the first
walk scans each node's list of children at most once.  The second one reads each place in a list of
children at most once, and its path is never longer than the tree has nodes. -/
theorem walks_end (t : Tree) :
    ComesToEnd (Discovery.step t) (Discovery.start t) (Discovery.finish t) (Discovery.budget t) ∧
      (∀ passed d, Course (Discovery.step t) (Discovery.start t) passed d →
        (passed.filterMap Discovery.scanned?).Nodup) ∧
      ComesToEnd (Traversal.step t) (Traversal.start t) (Traversal.finish t)
        (Traversal.budget t) ∧
      ∀ passed w, Course (Traversal.step t) (Traversal.start t) passed w →
        (passed.filterMap (Traversal.place? t)).Nodup ∧
          (∀ id k, Traversal.place? t w = some (id, k) ↔
            ∃ child more path, w.path = (id, child :: more) :: path ∧
              (t.children id).length = k + (more.length + 1) ∧
              (t.children id)[k]? = some child) ∧
          w.path.length ≤ t.nodes.size := by
  refine ⟨Discovery.comesToEnd t, fun passed d => Discovery.nodup_scanned, Traversal.comesToEnd t,
    fun passed w hcourse => ?_⟩
  obtain ⟨hkept, hends⟩ := hcourse.keeps Traversal.kept_leavesEnds_step
    ⟨Traversal.kept_start t, Traversal.leavesEnds_start t⟩
  exact ⟨Traversal.nodup_places hcourse, fun id k => hends.place?_eq_some_iff,
    Traversal.length_path_le hkept.sound hkept.marked⟩

end Dialogue.Layout
