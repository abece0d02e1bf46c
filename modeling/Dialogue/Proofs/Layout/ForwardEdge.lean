import Dialogue.Proofs.Layout.Marks
import Dialogue.Proofs.Layout.Trail
/-!
# Edges that lead on and edges that lead back

An edge leads back if its target is on the current path of the depth-first visit, when the edge is
looked at.  The walk along paths collects exactly the other edges, for it marks what is on its path
(`Traversal.mem_forward_iff`).
-/

namespace Dialogue

namespace Tree

/-- Whether an edge leads back: its target is on the current path, which consists of the way to its
source and of the source itself. -/
def LeadsBack (t : Tree) (id child : String) : Prop :=
  t.Leads id child ∧ ∃ path, (id, path) ∈ Layout.trails t ∧ child ∈ id :: path

def LeadsOn (t : Tree) (id child : String) : Prop := t.Leads id child ∧ ¬ t.LeadsBack id child

inductive PathTo (t : Tree) (edge : String → String → Prop) : Nat → String → Prop where
  | start : PathTo t edge 0 t.start
  | step {n : Nat} {id child : String} (hpath : PathTo t edge n id) (hedge : edge id child) :
      PathTo t edge (n + 1) child

variable {t : Tree} {id child : String} {path : List String}

theorem leadsOn_iff (h : (id, path) ∈ Layout.trails t) :
    t.LeadsOn id child ↔ child ∈ t.children id ∧ child ∉ id :: path := by
  refine and_congr_right fun hchild => not_congr ⟨?_, fun hmem => ⟨hchild, path, h, hmem⟩⟩
  rintro ⟨-, path', h', hmem⟩
  have heq := List.inj_on_of_nodup_map (Layout.grounded_trails t).ids_nodup h' h rfl
  rw [← (Prod.mk.inj heq).2]
  exact hmem

/-- An edge from a node to itself leads back. -/
theorem LeadsOn.ne (h : t.LeadsOn id child) (hreaches : t.Reaches id) : child ≠ id := by
  obtain ⟨path, hpath⟩ := Layout.exists_mem_trails_iff.2 hreaches
  exact List.ne_of_not_mem_cons ((leadsOn_iff hpath).1 h).2

theorem leadsOn_of_mem_trails {parent : String} (h : (id, parent :: path) ∈ Layout.trails t) :
    t.LeadsOn parent id := by
  have hgrounded := Layout.grounded_trails t
  obtain ⟨hparent, hchild⟩ := hgrounded.endsAt _ h
  exact (leadsOn_iff hparent).2 ⟨hchild, (List.nodup_cons.1 (hgrounded.path_nodup _ h)).1⟩

theorem pathTo_of_mem_trails (h : (id, path) ∈ Layout.trails t) :
    t.PathTo t.LeadsOn path.length id := by
  induction path generalizing id with
  | nil =>
      have hstart : id = t.start := (Layout.grounded_trails t).endsAt _ h
      exact hstart ▸ .start
  | cons parent path ih =>
      exact .step (ih ((Layout.grounded_trails t).endsAt _ h).1) (leadsOn_of_mem_trails h)

theorem leads_of_mem_trails (h : (id, path) ∈ Layout.trails t) {other : String}
    (hother : other ∈ id :: path) : Relation.ReflTransGen t.Leads other id := by
  induction path generalizing id with
  | nil =>
      rw [List.mem_singleton.1 hother]
  | cons parent path ih =>
      rcases List.mem_cons.1 hother with rfl | hmem
      · exact .refl
      · obtain ⟨hparent, hchild⟩ := (Layout.grounded_trails t).endsAt _ h
        exact (ih hparent hmem).tail hchild

theorem LeadsBack.cycle (h : t.LeadsBack id child) : Relation.TransGen t.Leads id id := by
  obtain ⟨hchild, path, hpath, hmem⟩ := h
  exact .head' hchild (leads_of_mem_trails hpath hmem)

theorem Reaches.of_pathTo {n : Nat} (hplayable : t.isPlayable = true)
    (h : t.PathTo t.Leads n id) : t.Reaches id := by
  induction h with
  | start => exact reaches_start hplayable
  | step _ hedge ih => exact ih.child hedge

theorem PathTo.imp {edge edge' : String → String → Prop} {n : Nat}
    (himp : ∀ id child, edge id child → edge' id child) (h : t.PathTo edge n id) :
    t.PathTo edge' n id := by
  induction h with
  | start => exact .start
  | step _ hedge ih => exact .step ih (himp _ _ hedge)

end Tree

namespace Layout.Traversal

/-- The edges that the walk has kept are those that do not lead back, of the nodes that it has met
and up to what is left to look at. -/
structure KeepsForward (t : Tree) (w : Traversal) : Prop where
  sound : ∀ source target, (source, target) ∈ w.forward →
    t.Reaches source ∧ t.LeadsOn source target
  complete : ∀ source ∈ w.preorder, ∀ target, t.LeadsOn source target →
    (source, target) ∈ w.forward ∨ ∃ more, (source, more) ∈ w.path ∧ target ∈ more

theorem keepsForward_start (t : Tree) : KeepsForward t (start t) := by
  unfold start
  split
  · refine ⟨by simp, fun source hsource target hon => ?_⟩
    rw [List.mem_singleton.1 hsource] at hon ⊢
    exact .inr ⟨_, List.mem_singleton_self _, hon.1⟩
  · exact ⟨by simp, by simp⟩

section Step

variable {t : Tree} {w w' : Traversal} {reached : List (String × List String)} {id child : String}
  {more : List String} {path : List (String × List String)}

theorem leadsOn_child_iff (hsound : Sound t w) (hmarked : Marked w) (hfollows : Follows t w reached)
    (hpath : w.path = (id, child :: more) :: path) :
    t.LeadsOn id child ↔ w.mark child ≠ .onPath := by
  have hchild : child ∈ t.children id :=
    hsound.path_children (id, child :: more) (hpath ▸ List.mem_cons_self) _ List.mem_cons_self
  rw [Tree.leadsOn_iff (hfollows.top_mem_trails hpath), ne_eq, hmarked.onPath_iff,
    openIds_of_path hpath]
  exact and_iff_right hchild

theorem keepsForward_leave (h : KeepsForward t w) (hpath : w.path = (id, []) :: path)
    (hpath' : w'.path = path) (hpreorder : w'.preorder = w.preorder)
    (hforward : w'.forward = w.forward) : KeepsForward t w' where
  sound := hforward ▸ h.sound
  complete := by
    rw [hpreorder, hforward, hpath']
    intro source hsource target hon
    refine (h.complete source hsource target hon).imp_right fun ⟨rest, hmem, htarget⟩ => ?_
    rw [hpath] at hmem
    rcases List.mem_cons.1 hmem with heq | hmem
    · cases heq
      exact absurd htarget List.not_mem_nil
    · exact ⟨rest, hmem, htarget⟩

theorem KeepsForward.after_child (h : KeepsForward t w)
    (hpath : w.path = (id, child :: more) :: path) {source target : String}
    (hsource : source ∈ w.preorder) (hon : t.LeadsOn source target) :
    (source, target) ∈ w.forward ∨ (source, target) = (id, child) ∨
      ∃ rest, (source, rest) ∈ (id, more) :: path ∧ target ∈ rest := by
  refine (h.complete source hsource target hon).imp_right fun ⟨rest, hmem, htarget⟩ => ?_
  rw [hpath] at hmem
  rcases List.mem_cons.1 hmem with heq | hmem
  · cases heq
    rcases List.mem_cons.1 htarget with rfl | htarget
    · exact .inl rfl
    · exact .inr ⟨more, List.mem_cons_self, htarget⟩
  · exact .inr ⟨rest, List.mem_cons_of_mem _ hmem, htarget⟩

/-- An edge out of the last node on the path may be kept if it does not lead back. -/
theorem KeepsForward.sound_forward (h : KeepsForward t w) (hsound : Sound t w)
    (hpath : w.path = (id, child :: more) :: path) (hon : t.LeadsOn id child)
    (hforward : w'.forward = (id, child) :: w.forward) :
    ∀ source target, (source, target) ∈ w'.forward → t.Reaches source ∧ t.LeadsOn source target := by
  intro source target hedge
  rw [hforward] at hedge
  rcases List.mem_cons.1 hedge with heq | hedge
  · cases heq
    have hmet : id ∈ w.preorder := hsound.path_met _ (hpath ▸ List.mem_cons_self)
    exact ⟨hsound.preorder_reaches id hmet, hon⟩
  · exact h.sound source target hedge

theorem keepsForward_descend (hsound : Sound t w) (h : KeepsForward t w)
    (hpath : w.path = (id, child :: more) :: path) (hon : t.LeadsOn id child)
    (hpath' : w'.path = (child, t.children child) :: (id, more) :: path)
    (hpreorder : w'.preorder = child :: w.preorder)
    (hforward : w'.forward = (id, child) :: w.forward) : KeepsForward t w' where
  sound := h.sound_forward hsound hpath hon hforward
  complete := by
    rw [hpreorder, hforward, hpath']
    intro source hsource target hleads
    rcases List.mem_cons.1 hsource with rfl | hsource
    · exact .inr ⟨_, List.mem_cons_self, hleads.1⟩
    · rcases h.after_child hpath hsource hleads with hedge | heq | ⟨rest, hmem, htarget⟩
      · exact .inl (List.mem_cons_of_mem _ hedge)
      · exact .inl (heq ▸ List.mem_cons_self)
      · exact .inr ⟨rest, List.mem_cons_of_mem _ hmem, htarget⟩

theorem keepsForward_skip (h : KeepsForward t w) (hpath : w.path = (id, child :: more) :: path)
    (hback : ¬ t.LeadsOn id child) (hpath' : w'.path = (id, more) :: path)
    (hpreorder : w'.preorder = w.preorder) (hforward : w'.forward = w.forward) :
    KeepsForward t w' where
  sound := hforward ▸ h.sound
  complete := by
    rw [hpreorder, hforward, hpath']
    intro source hsource target hleads
    rcases h.after_child hpath hsource hleads with hedge | heq | hrest
    · exact .inl hedge
    · cases heq
      exact absurd hleads hback
    · exact .inr hrest

theorem keepsForward_join (hsound : Sound t w) (h : KeepsForward t w)
    (hpath : w.path = (id, child :: more) :: path) (hon : t.LeadsOn id child)
    (hpath' : w'.path = (id, more) :: path) (hpreorder : w'.preorder = w.preorder)
    (hforward : w'.forward = (id, child) :: w.forward) : KeepsForward t w' where
  sound := h.sound_forward hsound hpath hon hforward
  complete := by
    rw [hpreorder, hforward, hpath']
    intro source hsource target hleads
    rcases h.after_child hpath hsource hleads with hedge | heq | hrest
    · exact .inl (List.mem_cons_of_mem _ hedge)
    · exact .inl (heq ▸ List.mem_cons_self)
    · exact .inr hrest

theorem keepsForward_step (hsound : Sound t w) (hmarked : Marked w) (hfollows : Follows t w reached)
    (h : KeepsForward t w) (hstep : step t w = some w') : KeepsForward t w' := by
  cases moved_of_step hstep with
  | leave hpath => exact keepsForward_leave h hpath rfl rfl rfl
  | descend hpath hmark =>
      have hon := (leadsOn_child_iff hsound hmarked hfollows hpath).2 (by simp [hmark])
      exact keepsForward_descend hsound h hpath hon rfl rfl rfl
  | skip hpath hmark =>
      have hback := mt (leadsOn_child_iff hsound hmarked hfollows hpath).1 (by simp [hmark])
      exact keepsForward_skip h hpath hback rfl rfl rfl
  | join hpath hmark =>
      have hon := (leadsOn_child_iff hsound hmarked hfollows hpath).2 (by simp [hmark])
      exact keepsForward_join hsound h hpath hon rfl rfl rfl

end Step

/-! ## All that is kept -/

structure Kept (t : Tree) (w : Traversal) : Prop where
  sound : Sound t w
  marked : Marked w
  ordered : Ordered w
  follows : ∃ reached, Follows t w reached
  keepsForward : KeepsForward t w
  finished_nodup : w.finished.Nodup

theorem kept_start (t : Tree) : Kept t (start t) where
  sound := sound_start t
  marked := marked_start t
  ordered := ordered_start t
  follows := follows_start t
  keepsForward := keepsForward_start t
  finished_nodup := by
    unfold start
    split <;> exact List.nodup_nil

theorem kept_step {t : Tree} {w w' : Traversal} (h : Kept t w) (hstep : step t w = some w') :
    Kept t w' := by
  obtain ⟨reached, hfollows⟩ := h.follows
  exact {
    sound := sound_step h.sound hstep
    marked := marked_step h.marked hstep
    ordered := ordered_step h.marked h.ordered hstep
    follows := follows_step h.sound hfollows hstep
    keepsForward := keepsForward_step h.sound h.marked hfollows h.keepsForward hstep
    finished_nodup := nodup_finished_step h.marked h.finished_nodup hstep }

theorem kept_iterate (t : Tree) (steps : Nat) : Kept t (iterate (step t) steps (start t)) :=
  iterate_keeps kept_step (kept_start t) steps

/-- In the end the walk has kept the edges that do not lead back, of all nodes that can be
reached. -/
theorem mem_forward_iff {t : Tree} {source target : String} :
    (source, target) ∈ (finish t).forward ↔ t.Reaches source ∧ t.LeadsOn source target := by
  have h : KeepsForward t (finish t) := (kept_iterate t (budget t)).keepsForward
  refine ⟨h.sound source target, fun ⟨hreaches, hon⟩ => ?_⟩
  rcases h.complete source (mem_preorder_iff.2 hreaches) target hon with hedge | ⟨more, hmem, -⟩
  · exact hedge
  · rw [(finish_spec t).2] at hmem
    exact absurd hmem List.not_mem_nil

end Layout.Traversal

end Dialogue
