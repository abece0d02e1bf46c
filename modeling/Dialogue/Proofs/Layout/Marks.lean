import Dialogue.Proofs.Layout.Traversal
/-!
# Marks and the order in which nodes are done

Between two steps of the walk along paths the marks tell exactly which nodes are on the path and
which are done (`Marked`).  A forward edge leads to a node that is done or to the next one on the
path, so that its target is done before its source (`Ordered`): in the reverse of the order in which
nodes are done, forward edges lead onward only.
-/

namespace Dialogue.Layout

namespace Traversal

/-- The nodes on the path, the last one first. -/
def openIds (w : Traversal) : List String := w.path.map (·.1)

structure Marked (w : Traversal) : Prop where
  onPath_iff : ∀ id, w.mark id = .onPath ↔ id ∈ w.openIds
  done_iff : ∀ id, w.mark id = .done ↔ id ∈ w.finished
  open_nodup : w.openIds.Nodup

/-- Forward edges lead to what is done before. -/
structure Ordered (w : Traversal) : Prop where
  target : ∀ source target, (source, target) ∈ w.forward →
    target ∈ w.finished ∨ [target, source] <:+: w.openIds
  pairwise : w.finished.Pairwise fun later earlier => (earlier, later) ∉ w.forward

theorem mark_insert {w w' : Traversal} {id : String} {m : Mark}
    (hmarks : w'.marks = w.marks.insert id m) (key : String) :
    w'.mark key = if key = id then m else w.mark key := by
  rw [mark, hmarks, SortedMap.get?_insert]
  split <;> rfl

theorem Marked.notMem_finished {w : Traversal} (h : Marked w) {id : String} (hid : id ∈ w.openIds) :
    id ∉ w.finished := by
  rw [← h.done_iff, (h.onPath_iff id).2 hid]
  simp

theorem marked_start (t : Tree) : Marked (start t) := by
  unfold start
  split
  · refine ⟨fun id => ?_, fun id => ?_, List.nodup_singleton _⟩ <;>
      by_cases hid : id = t.start <;> simp [mark, openIds, hid]
  · exact ⟨by simp [mark, openIds], by simp [mark], List.nodup_nil⟩

theorem ordered_start (t : Tree) : Ordered (start t) := by
  unfold start
  split <;> exact ⟨by simp, List.Pairwise.nil⟩

section Step

variable {t : Tree} {w w' : Traversal} {id child : String} {more : List String}
  {path : List (String × List String)}

theorem openIds_of_path {rest : List String} (hpath : w.path = (id, rest) :: path) :
    w.openIds = id :: path.map (·.1) := by
  rw [openIds, hpath, List.map_cons]

theorem marked_leave (h : Marked w) (hpath : w.path = (id, []) :: path) (hpath' : w'.path = path)
    (hmarks : w'.marks = w.marks.insert id .done) (hfinished : w'.finished = id :: w.finished) :
    Marked w' := by
  have hopen : w.openIds = id :: w'.openIds := by
    rw [openIds_of_path hpath, openIds, hpath']
  obtain ⟨hid, hnodup⟩ := List.nodup_cons.1 (hopen ▸ h.open_nodup)
  refine ⟨fun key => ?_, fun key => ?_, hnodup⟩
  · have hold := h.onPath_iff key
    rw [hopen, List.mem_cons] at hold
    rw [mark_insert hmarks]
    split
    next heq =>
      rw [heq]
      simpa using hid
    next hne => simpa [hne] using hold
  · have hold := h.done_iff key
    rw [mark_insert hmarks, hfinished, List.mem_cons]
    split
    next heq => simp [heq]
    next hne => simpa [hne] using hold

theorem marked_descend (h : Marked w) (hpath : w.path = (id, child :: more) :: path)
    (hmark : w.mark child = .unseen)
    (hpath' : w'.path = (child, t.children child) :: (id, more) :: path)
    (hmarks : w'.marks = w.marks.insert child .onPath) (hfinished : w'.finished = w.finished) :
    Marked w' := by
  have hopen : w'.openIds = child :: w.openIds := by
    rw [openIds_of_path hpath, openIds_of_path hpath', List.map_cons]
  have hnew : child ∉ w.openIds := by
    rw [← h.onPath_iff, hmark]
    simp
  refine ⟨fun key => ?_, fun key => ?_, hopen ▸ List.nodup_cons.2 ⟨hnew, h.open_nodup⟩⟩
  · have hold := h.onPath_iff key
    rw [mark_insert hmarks, hopen, List.mem_cons]
    split
    next heq => simp [heq]
    next hne => simpa [hne] using hold
  · have hold := h.done_iff key
    rw [mark_insert hmarks, hfinished]
    split
    next heq =>
      rw [heq, ← h.done_iff, hmark]
      simp
    next hne => exact hold

theorem marked_pass (h : Marked w) (hpath : w.path = (id, child :: more) :: path)
    (hpath' : w'.path = (id, more) :: path) (hmarks : w'.marks = w.marks)
    (hfinished : w'.finished = w.finished) : Marked w' := by
  have hopen : w'.openIds = w.openIds := by rw [openIds_of_path hpath, openIds_of_path hpath']
  refine ⟨fun key => ?_, fun key => ?_, hopen ▸ h.open_nodup⟩
  · rw [mark, hmarks, hopen]
    exact h.onPath_iff key
  · rw [mark, hmarks, hfinished]
    exact h.done_iff key

theorem marked_step (h : Marked w) (hstep : step t w = some w') : Marked w' := by
  cases moved_of_step hstep with
  | leave hpath => exact marked_leave h hpath rfl rfl rfl
  | descend hpath hmark => exact marked_descend h hpath hmark rfl rfl rfl
  | skip hpath hmark => exact marked_pass h hpath rfl rfl rfl
  | join hpath hmark => exact marked_pass h hpath rfl rfl rfl

theorem nodup_finished_step (hmarked : Marked w) (h : w.finished.Nodup)
    (hstep : step t w = some w') : w'.finished.Nodup := by
  cases moved_of_step hstep with
  | leave hpath =>
      have hopen := openIds_of_path hpath
      exact List.nodup_cons.2 ⟨hmarked.notMem_finished (hopen ▸ List.mem_cons_self), h⟩
  | descend hpath hmark => exact h
  | skip hpath hmark => exact h
  | join hpath hmark => exact h

theorem ordered_leave (hmarked : Marked w) (h : Ordered w) (hpath : w.path = (id, []) :: path)
    (hpath' : w'.path = path) (hfinished : w'.finished = id :: w.finished)
    (hforward : w'.forward = w.forward) : Ordered w' := by
  have hopen : w.openIds = id :: w'.openIds := by
    rw [openIds_of_path hpath, openIds, hpath']
  refine ⟨fun source target hedge => ?_, ?_⟩
  · rw [hforward] at hedge
    rw [hfinished]
    rcases h.target source target hedge with hdone | hnext
    · exact .inl (List.mem_cons_of_mem _ hdone)
    · rw [hopen, List.infix_cons_iff] at hnext
      rcases hnext with htop | hbelow
      · have heq : target = id := (List.cons_prefix_cons.1 htop).1
        exact .inl (heq ▸ List.mem_cons_self)
      · exact .inr hbelow
  · rw [hfinished, hforward]
    refine List.pairwise_cons.2 ⟨fun earlier hearlier hedge => ?_, h.pairwise⟩
    -- the node that is left was neither done before nor above a node that is done
    rcases h.target earlier id hedge with hdone | hnext
    · have hid : id ∈ w.openIds := hopen ▸ List.mem_cons_self
      exact hmarked.notMem_finished hid hdone
    · have hopenEarlier : earlier ∈ w.openIds := hnext.subset (by simp)
      exact hmarked.notMem_finished hopenEarlier hearlier

theorem ordered_forward (hmarked : Marked w) (h : Ordered w) (hid : id ∈ w.openIds)
    (hopen : w.openIds <:+: w'.openIds) (hfinished : w'.finished = w.finished)
    (hforward : w'.forward = (id, child) :: w.forward)
    (hchild : child ∈ w.finished ∨ [child, id] <:+: w'.openIds) : Ordered w' := by
  refine ⟨fun source target hedge => ?_, ?_⟩
  · rw [hfinished]
    rw [hforward] at hedge
    rcases List.mem_cons.1 hedge with heq | hedge
    · cases heq
      exact hchild
    · exact (h.target source target hedge).imp_right fun hnext => hnext.trans hopen
  · rw [hfinished, hforward]
    refine h.pairwise.imp_of_mem fun {later earlier} _ hearlier hnot hedge => ?_
    rcases List.mem_cons.1 hedge with heq | hedge
    · cases heq
      exact hmarked.notMem_finished hid hearlier
    · exact hnot hedge

theorem ordered_step (hmarked : Marked w) (h : Ordered w) (hstep : step t w = some w') :
    Ordered w' := by
  cases moved_of_step hstep with
  | leave hpath => exact ordered_leave hmarked h hpath rfl rfl rfl
  | descend hpath hmark =>
      have hopen := openIds_of_path hpath
      refine ordered_forward hmarked h (hopen ▸ List.mem_cons_self) ?_ rfl rfl (.inr ?_)
      · rw [hopen]
        exact (List.suffix_cons _ _).isInfix
      · exact (List.prefix_append [_, _] _).isInfix
  | skip hpath hmark =>
      have hopen := openIds_of_path hpath
      refine ⟨fun source target hedge => ?_, h.pairwise⟩
      have htarget := h.target source target hedge
      rw [hopen] at htarget
      exact htarget
  | join hpath hmark =>
      have hopen := openIds_of_path hpath
      refine ordered_forward hmarked h (hopen ▸ List.mem_cons_self) ?_ rfl rfl
        (.inl ((hmarked.done_iff _).1 hmark))
      rw [hopen]
      exact List.infix_rfl

end Step

theorem marked_ordered_finish (t : Tree) : Marked (finish t) ∧ Ordered (finish t) :=
  finish_keeps (P := fun w => Marked w ∧ Ordered w) ⟨marked_start t, ordered_start t⟩
    fun ⟨hmarked, h⟩ hstep => ⟨marked_step hmarked hstep, ordered_step hmarked h hstep⟩

/-- In the end all nodes that have been met are done. -/
theorem mem_finished_iff {t : Tree} {id : String} : id ∈ (finish t).finished ↔ t.Reaches id := by
  obtain ⟨hsound, hpath⟩ := finish_spec t
  have hmarked := (marked_ordered_finish t).1
  have hopen : id ∉ (finish t).openIds := by rw [openIds, hpath]; exact List.not_mem_nil
  rw [← hmarked.done_iff, ← mem_preorder_iff, ← hsound.met_iff, hasMet]
  rw [← hmarked.onPath_iff] at hopen
  cases hmark : (finish t).mark id <;> simp_all [Mark.isMet]

end Traversal

end Dialogue.Layout
