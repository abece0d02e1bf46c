import Dialogue.Proofs.Layout.Reach
/-!
# The first walk finds what can be reached

`Discovery.Sound` is the invariant of the walk that gives each node the depth at which it is first
reached.  At the end of the walk nothing is left to go on with, so that what has been reached is
closed under children, and `mem_reachableIds_iff` follows.
-/

namespace Dialogue.Layout

namespace Discovery

def Meets (d : Discovery) (id : String) : Prop :=
  d.hasReached id = true ∨ ∃ depth, (id, depth) ∈ d.stack

structure Sound (t : Tree) (d : Discovery) : Prop where
  stack_reaches : ∀ entry ∈ d.stack, t.Reaches entry.1
  reached_reaches : ∀ entry ∈ d.reached, t.Reaches entry.1
  start_met : t.isPlayable = true → d.Meets t.start
  children_met : ∀ id, d.hasReached id = true → ∀ child ∈ t.children id, d.Meets child

/-- What is left to do: the nodes to go on with, and the children of those not yet reached. -/
def remaining (t : Tree) (d : Discovery) : Nat :=
  d.stack.length + unmetWeight t d.hasReached fun id => (t.children id).length

theorem hasReached_iff {d : Discovery} {id : String} :
    d.hasReached id = true ↔ id ∈ d.reached.map (·.1) := by
  simp [hasReached]

theorem step_cases {t : Tree} {d d' : Discovery} (h : step t d = some d') :
    ∃ id depth stack, d.stack = (id, depth) :: stack ∧
      ((d.hasReached id = true ∧ d' = { d with stack := stack }) ∨
        (d.hasReached id = false ∧ d' = takeUp t d id depth stack)) := by
  unfold step at h
  cases hstack : d.stack with
  | nil =>
      rw [hstack] at h
      cases h
  | cons entry stack =>
      rw [hstack] at h
      refine ⟨entry.1, entry.2, stack, rfl, ?_⟩
      cases hreached : d.hasReached entry.1 with
      | true =>
          simp only [hreached, if_true] at h
          exact .inl ⟨rfl, (Option.some.inj h).symm⟩
      | false =>
          simp only [hreached, Bool.false_eq_true, if_false] at h
          exact .inr ⟨rfl, (Option.some.inj h).symm⟩

section TakeUp

variable (t : Tree) (d : Discovery) (id : String) (depth : Nat) (stack : List (String × Nat))

theorem hasReached_takeUp (key : String) :
    (takeUp t d id depth stack).hasReached key = (decide (key = id) || d.hasReached key) := by
  simp [takeUp, hasReached, eq_comm]

theorem length_stack_takeUp :
    (takeUp t d id depth stack).stack.length ≤ (t.children id).length + stack.length := by
  have hle := List.length_filter_le
    (fun child => !((id, depth) :: d.reached).any fun entry => entry.1 = child) (t.children id)
  simp only [takeUp, List.length_append, List.length_map]
  omega

variable {t d id depth stack}

/-- A child of the node that is taken up is met: it has been reached, or it comes next. -/
theorem meets_takeUp_of_child {child : String} (h : child ∈ t.children id) :
    (takeUp t d id depth stack).Meets child := by
  cases hreached : (takeUp t d id depth stack).hasReached child with
  | true => exact .inl hreached
  | false =>
      refine .inr ⟨depth + 1, List.mem_append_left _ (List.mem_map.2 ⟨child, ?_, rfl⟩)⟩
      rw [List.mem_filter, Bool.not_eq_true']
      exact ⟨h, hreached⟩

theorem meets_takeUp (hstack : d.stack = (id, depth) :: stack) {key : String}
    (h : d.Meets key) : (takeUp t d id depth stack).Meets key := by
  rcases h with h | ⟨depth', h⟩
  · exact .inl (by simp [hasReached_takeUp, h])
  · rw [hstack] at h
    rcases List.mem_cons.1 h with heq | h
    · have hkey : key = id := congrArg Prod.fst heq
      exact .inl (by simp [hasReached_takeUp, hkey])
    · exact .inr ⟨depth', List.mem_append_right _ h⟩

end TakeUp

theorem sound_start (t : Tree) : Sound t (start t) := by
  unfold start
  cases hplayable : t.isPlayable with
  | true =>
      refine ⟨?_, by simp, fun _ => .inr ⟨0, List.mem_singleton_self _⟩, by simp [hasReached]⟩
      intro entry hentry
      rw [List.mem_singleton.1 hentry]
      exact Tree.reaches_start hplayable
  | false => exact ⟨by simp, by simp, by simp [hplayable], by simp [hasReached]⟩

theorem sound_step {t : Tree} {d d' : Discovery} (h : Sound t d) (hstep : step t d = some d') :
    Sound t d' := by
  obtain ⟨id, depth, stack, hstack, ⟨hreached, rfl⟩ | ⟨hreached, rfl⟩⟩ := step_cases hstep
  · -- the node on top has been reached before, so leaving it out loses nothing
    have hmeets : ∀ key, d.Meets key → Meets { d with stack := stack } key := by
      rintro key (hkey | ⟨depth', hkey⟩)
      · exact .inl hkey
      · rw [hstack] at hkey
        rcases List.mem_cons.1 hkey with heq | hkey
        · have : key = id := congrArg Prod.fst heq
          exact .inl (this ▸ hreached)
        · exact .inr ⟨depth', hkey⟩
    exact {
      stack_reaches := fun entry hentry =>
        h.stack_reaches entry (hstack ▸ List.mem_cons_of_mem _ hentry)
      reached_reaches := h.reached_reaches
      start_met := fun hplayable => hmeets _ (h.start_met hplayable)
      children_met := fun key hkey child hchild => hmeets _ (h.children_met key hkey child hchild) }
  · have hid : t.Reaches id := h.stack_reaches (id, depth) (hstack ▸ List.mem_cons_self)
    refine ⟨?_, ?_, fun hplayable => meets_takeUp hstack (h.start_met hplayable), ?_⟩
    · intro entry hentry
      rcases List.mem_append.1 hentry with hnext | hrest
      · obtain ⟨child, hchild, rfl⟩ := List.mem_map.1 hnext
        exact hid.child (List.mem_filter.1 hchild).1
      · exact h.stack_reaches entry (hstack ▸ List.mem_cons_of_mem _ hrest)
    · intro entry hentry
      rcases List.mem_cons.1 hentry with rfl | hentry
      · exact hid
      · exact h.reached_reaches entry hentry
    · intro key hkey child hchild
      by_cases heq : key = id
      · subst heq
        exact meets_takeUp_of_child hchild
      · have hold : d.hasReached key = true := by simpa [hasReached_takeUp, heq] using hkey
        exact meets_takeUp hstack (h.children_met key hold child hchild)

theorem remaining_step {t : Tree} {d d' : Discovery} (h : Sound t d)
    (hstep : step t d = some d') : remaining t d' < remaining t d := by
  obtain ⟨id, depth, stack, hstack, ⟨hreached, rfl⟩ | ⟨hreached, rfl⟩⟩ := step_cases hstep
  · change stack.length + unmetWeight t d.hasReached _ < d.stack.length + _
    rw [hstack, List.length_cons]
    omega
  · have hid : t.Reaches id := h.stack_reaches (id, depth) (hstack ▸ List.mem_cons_self)
    have hweight := unmetWeight_meet (fun key => (t.children key).length) hid.mem_keys hreached
      (hasReached_takeUp t d id depth stack)
    have hlength := length_stack_takeUp t d id depth stack
    simp only [remaining, hstack, List.length_cons]
    omega

theorem remaining_start (t : Tree) : remaining t (start t) ≤ budget t := by
  have hweight : unmetWeight t (start t).hasReached (fun id => (t.children id).length) =
      t.edgeCount := unmetWeight_children t
  have hlength : (start t).stack.length ≤ 1 := by
    unfold start
    split <;> simp
  simp only [remaining, budget]
  omega

theorem stack_eq_nil_of_step_eq_none {t : Tree} {d : Discovery} (h : step t d = none) :
    d.stack = [] := by
  unfold step at h
  split at h
  · assumption
  · split at h <;> cases h

/-- The walk comes to its end within its budget. -/
theorem finish_spec (t : Tree) : Sound t (finish t) ∧ (finish t).stack = [] := by
  obtain ⟨hsound, hnone⟩ := iterate_spec (Sound t) (remaining t)
    (fun h hstep => ⟨sound_step h hstep, remaining_step h hstep⟩) (sound_start t)
    (remaining_start t)
  exact ⟨hsound, stack_eq_nil_of_step_eq_none hnone⟩

end Discovery

theorem mem_reachableIds {t : Tree} {id : String} :
    id ∈ reachableIds t ↔ (Discovery.finish t).hasReached id = true := by
  rw [Discovery.hasReached_iff, reachableIds, firstDiscovery, List.map_reverse, List.mem_reverse]

theorem mem_reachableIds_iff {t : Tree} {id : String} :
    id ∈ reachableIds t ↔ t.Reaches id := by
  obtain ⟨hsound, hstack⟩ := Discovery.finish_spec t
  have hmeets : ∀ key, (Discovery.finish t).Meets key → key ∈ reachableIds t := by
    rintro key (hkey | ⟨depth, hkey⟩)
    · exact mem_reachableIds.2 hkey
    · rw [hstack] at hkey
      exact absurd hkey List.not_mem_nil
  constructor
  · intro hmem
    obtain ⟨entry, hentry, rfl⟩ :=
      List.mem_map.1 (Discovery.hasReached_iff.1 (mem_reachableIds.1 hmem))
    exact hsound.reached_reaches entry hentry
  · intro hreaches
    refine hreaches.rec_children (hmeets _ (hsound.start_met hreaches.1)) ?_
    intro key hkey child hchild
    exact hmeets _ (hsound.children_met key (mem_reachableIds.1 hkey) child hchild)

end Dialogue.Layout
