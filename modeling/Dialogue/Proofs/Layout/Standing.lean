import Dialogue.Proofs.Layout.ForwardEdge
/-!
# The walk along paths between any two of its steps

`Kept` gathers what every step of the walk keeps, and `Standing` is what follows from it for the
marks, the path, the order in which nodes are done and the edges that are kept.  An edge is left out
at the moment when it is looked at, and only because its target is on the path at that moment.
-/

namespace Dialogue.Layout

theorem isChain_of_mem_trails {t : Tree} {id : String} {path : List String}
    (h : (id, path) ∈ trails t) :
    List.IsChain (fun child parent => child ∈ t.children parent) (id :: path) ∧
      (id :: path).getLast? = some t.start := by
  induction path generalizing id with
  | nil =>
      have hstart : id = t.start := (grounded_trails t).endsAt _ h
      exact ⟨List.isChain_singleton id, congrArg some hstart⟩
  | cons parent path ih =>
      obtain ⟨hparent, hchild⟩ := (grounded_trails t).endsAt _ h
      obtain ⟨hchain, hlast⟩ := ih hparent
      refine ⟨List.isChain_cons_cons.2 ⟨hchild, hchain⟩, ?_⟩
      rw [List.getLast?_cons_cons]
      exact hlast

namespace Traversal

/-- What the walk has recorded is right, whenever it is about to take a step. -/
structure Standing (t : Tree) (w : Traversal) : Prop where
  onPath_iff : ∀ id, w.mark id = .onPath ↔ id ∈ w.openIds
  open_nodup : w.openIds.Nodup
  open_chain : List.IsChain (fun child parent => child ∈ t.children parent) w.openIds
  open_start : w.openIds ≠ [] → w.openIds.getLast? = some t.start
  done_iff : ∀ id, w.mark id = .done ↔ id ∈ w.finished
  finished_nodup : w.finished.Nodup
  children_marked : ∀ id, w.mark id = .done → ∀ child ∈ t.children id,
    w.mark child = .onPath ∨ w.mark child = .done
  /-- The nodes done are listed with the last one first. -/
  forward_earlier : ∀ id target, w.mark id = .done → (id, target) ∈ w.forward →
    ∃ later earlier, w.finished = later ++ id :: earlier ∧ target ∈ earlier

variable {t : Tree} {w w' : Traversal} {id child : String} {more : List String}
  {path : List (String × List String)}

/-! ## What every step keeps says so -/

theorem isChain_openIds (hfollows : ∃ reached, Follows t w reached) :
    List.IsChain (fun child parent => child ∈ t.children parent) w.openIds ∧
      (w.openIds ≠ [] → w.openIds.getLast? = some t.start) := by
  obtain ⟨reached, hfollows⟩ := hfollows
  cases hpath : w.path with
  | nil =>
      have hopen : w.openIds = [] := by rw [openIds, hpath, List.map_nil]
      rw [hopen]
      exact ⟨List.isChain_nil, fun hne => absurd rfl hne⟩
  | cons entry path =>
      obtain ⟨id, rest⟩ := entry
      obtain ⟨hchain, hlast⟩ := isChain_of_mem_trails (hfollows.top_mem_trails hpath)
      rw [openIds_of_path hpath]
      exact ⟨hchain, fun _ => hlast⟩

/-- A node that is done has no child left to look at, so that all its children have been met. -/
theorem Kept.children_marked (h : Kept t w) (hdone : w.mark id = .done)
    (hchild : child ∈ t.children id) : w.mark child = .onPath ∨ w.mark child = .done := by
  have hid : id ∈ w.preorder := (h.sound.met_iff id).1 (hasMet_of_mark hdone rfl)
  have hclosed : id ∉ w.openIds := by
    rw [← h.marked.onPath_iff, hdone]
    simp
  rcases h.sound.children_met id hid child hchild with hmet | ⟨rest, hrest, -⟩
  · rw [← h.sound.met_iff, hasMet] at hmet
    cases hmark : w.mark child <;> simp_all [Mark.isMet]
  · exact absurd (List.mem_map_of_mem (f := (·.1)) hrest) hclosed

theorem Kept.forward_earlier (h : Kept t w) {target : String} (hdone : w.mark id = .done)
    (hedge : (id, target) ∈ w.forward) :
    ∃ later earlier, w.finished = later ++ id :: earlier ∧ target ∈ earlier := by
  have hid : id ∈ w.finished := (h.marked.done_iff id).1 hdone
  have htarget : target ∈ w.finished := by
    rcases h.ordered.target id target hedge with hfinished | hnext
    · exact hfinished
    · have hopen : id ∈ w.openIds := hnext.subset (by simp)
      exact absurd hid (h.marked.notMem_finished hopen)
  obtain ⟨later, earlier, heq⟩ := List.append_of_mem hid
  refine ⟨later, earlier, heq, ?_⟩
  rw [heq, List.mem_append, List.mem_cons] at htarget
  rcases htarget with hlater | hsame | hearlier
  · -- what is done later is the target of no edge out of this node
    have hpairwise := h.ordered.pairwise
    rw [heq, List.pairwise_append] at hpairwise
    exact absurd hedge (hpairwise.2.2 target hlater id List.mem_cons_self)
  · obtain ⟨hreaches, hon⟩ := h.keepsForward.sound id target hedge
    exact absurd hsame (hon.ne hreaches)
  · exact hearlier

theorem Kept.standing (h : Kept t w) : Standing t w where
  onPath_iff := h.marked.onPath_iff
  open_nodup := h.marked.open_nodup
  open_chain := (isChain_openIds h.follows).1
  open_start := (isChain_openIds h.follows).2
  done_iff := h.marked.done_iff
  finished_nodup := h.finished_nodup
  children_marked := fun _ hdone _ hchild => h.children_marked hdone hchild
  forward_earlier := fun _ _ hdone hedge => h.forward_earlier hdone hedge

/-! ## Looking at a child -/

/-- A step that looks at a child takes it off its list.  A child that is new is put on the path. -/
theorem look_cases (hpath : w.path = (id, child :: more) :: path) (hstep : step t w = some w') :
    (w.mark child = .unseen ∧ w' = { w with
      path := (child, t.children child) :: (id, more) :: path
      marks := w.marks.insert child .onPath
      preorder := child :: w.preorder
      forward := (id, child) :: w.forward }) ∨
    (w.mark child = .onPath ∧ w' = { w with path := (id, more) :: path }) ∨
    (w.mark child = .done ∧
      w' = { w with path := (id, more) :: path, forward := (id, child) :: w.forward }) := by
  rw [step, hpath] at hstep
  cases hmark : w.mark child with
  | unseen => exact .inl ⟨rfl, by simpa [hmark] using hstep.symm⟩
  | onPath => exact .inr (.inl ⟨rfl, by simpa [hmark] using hstep.symm⟩)
  | done => exact .inr (.inr ⟨rfl, by simpa [hmark] using hstep.symm⟩)

theorem forward_of_step_child (hmarked : Marked w) (hpath : w.path = (id, child :: more) :: path)
    (hstep : step t w = some w') :
    w'.forward = if child ∈ w.openIds then w.forward else (id, child) :: w.forward := by
  simp only [← hmarked.onPath_iff]
  obtain ⟨hmark, rfl⟩ | ⟨hmark, rfl⟩ | ⟨hmark, rfl⟩ := look_cases hpath hstep
  · rw [if_neg (by simp [hmark])]
  · rw [if_pos hmark]
  · rw [if_neg (by simp [hmark])]

theorem forward_of_step_nil (hpath : w.path = (id, []) :: path) (hstep : step t w = some w') :
    w'.forward = w.forward := by
  rw [step, hpath] at hstep
  cases hstep
  rfl

/-- After any number of steps the marks are right: on the path are exactly the nodes marked so, each
once, from the start on and each a child of the one before; done are exactly the nodes in the order
of the end, each once, with all their children met and with edges that are kept only to nodes done
before.  A step that looks at a child keeps the edge to it unless the child is on the path, that is
the node itself or one above it, and no other step touches the edges.  So in the end those edges
have been left out that lead back to the way on which their source was visited. -/
theorem marks_right (t : Tree) (steps : Nat) :
    let w := iterate (step t) steps (start t)
    Standing t w ∧
      (∀ id child more path w', w.path = (id, child :: more) :: path → step t w = some w' →
        w'.forward = if child ∈ w.openIds then w.forward else (id, child) :: w.forward) ∧
      (∀ id path w', w.path = (id, []) :: path → step t w = some w' → w'.forward = w.forward) ∧
      ∀ id child, t.Reaches id → child ∈ t.children id →
        ((id, child) ∉ (finish t).forward ↔
          ∃ path, (id, path) ∈ trails t ∧ child ∈ id :: path) := by
  intro w
  have hkept := kept_iterate t steps
  refine ⟨hkept.standing, fun id child more path w' => forward_of_step_child hkept.marked,
    fun id path w' => forward_of_step_nil, fun id child hreaches hchild => ?_⟩
  have hback : t.LeadsBack id child ↔ ∃ path, (id, path) ∈ trails t ∧ child ∈ id :: path :=
    and_iff_right hchild
  rw [mem_forward_iff, ← hback]
  simp [hreaches, Tree.LeadsOn, Tree.Leads, hchild]

end Traversal

end Dialogue.Layout
