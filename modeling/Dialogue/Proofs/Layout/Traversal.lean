import Dialogue.Layout.LongestPath
import Dialogue.Proofs.Layout.Reach
/-!
# The second walk finds the same nodes

`Traversal.Sound` is the invariant of the walk along paths with marks.  A child of a node that has
been met is met too, or is still to be looked at on the path; at the end the path is empty, and
`mem_longestPath_iff` follows.
-/

namespace Dialogue.Layout

def Mark.isMet : Mark → Bool
  | unseen => false
  | onPath => true
  | done => true

namespace Traversal

inductive Moved (t : Tree) (w : Traversal) : Traversal → Prop where
  | leave {id : String} {path : List (String × List String)} (hpath : w.path = (id, []) :: path) :
      Moved t w
        { w with path := path, marks := w.marks.insert id .done, finished := id :: w.finished }
  | descend {id child : String} {more : List String} {path : List (String × List String)}
      (hpath : w.path = (id, child :: more) :: path) (hmark : w.mark child = .unseen) :
      Moved t w
        { w with
          path := (child, t.children child) :: (id, more) :: path
          marks := w.marks.insert child .onPath
          preorder := child :: w.preorder
          forward := (id, child) :: w.forward }
  | skip {id child : String} {more : List String} {path : List (String × List String)}
      (hpath : w.path = (id, child :: more) :: path) (hmark : w.mark child = .onPath) :
      Moved t w { w with path := (id, more) :: path }
  | join {id child : String} {more : List String} {path : List (String × List String)}
      (hpath : w.path = (id, child :: more) :: path) (hmark : w.mark child = .done) :
      Moved t w { w with path := (id, more) :: path, forward := (id, child) :: w.forward }

theorem moved_of_step {t : Tree} {w w' : Traversal} (h : step t w = some w') : Moved t w w' := by
  unfold step at h
  split at h
  next => cases h
  next id path hpath =>
    cases h
    exact .leave hpath
  next id child more path hpath =>
    split at h
    next hmark =>
      cases h
      exact .descend hpath hmark
    next hmark =>
      cases h
      exact .skip hpath hmark
    next hmark =>
      cases h
      exact .join hpath hmark

theorem path_eq_nil_of_step_eq_none {t : Tree} {w : Traversal} (h : step t w = none) :
    w.path = [] := by
  unfold step at h
  split at h
  next hpath => exact hpath
  next => cases h
  next => split at h <;> cases h

def hasMet (w : Traversal) (id : String) : Bool := (w.mark id).isMet

theorem hasMet_insert {w w' : Traversal} {id : String} {m : Mark}
    (hmarks : w'.marks = w.marks.insert id m) (hm : m.isMet = true) (key : String) :
    w'.hasMet key = (decide (key = id) || w.hasMet key) := by
  by_cases hkey : key = id
  · simp [hasMet, mark, hmarks, hkey, hm]
  · simp [hasMet, mark, hmarks, hkey]

theorem hasMet_of_mark {w : Traversal} {id : String} {m : Mark} (hmark : w.mark id = m)
    (hm : m.isMet = true) : w.hasMet id = true := by
  rw [hasMet, hmark, hm]

structure Sound (t : Tree) (w : Traversal) : Prop where
  met_iff : ∀ id, w.hasMet id = true ↔ id ∈ w.preorder
  preorder_reaches : ∀ id ∈ w.preorder, t.Reaches id
  path_met : ∀ entry ∈ w.path, entry.1 ∈ w.preorder
  path_children : ∀ entry ∈ w.path, ∀ child ∈ entry.2, child ∈ t.children entry.1
  start_met : t.isPlayable = true → t.start ∈ w.preorder
  children_met : ∀ id ∈ w.preorder, ∀ child ∈ t.children id,
    child ∈ w.preorder ∨ ∃ more, (id, more) ∈ w.path ∧ child ∈ more

theorem sound_start (t : Tree) : Sound t (start t) := by
  unfold start
  cases hplayable : t.isPlayable with
  | true =>
      have hmet : ∀ id, hasMet ⟨[(t.start, t.children t.start)],
          SortedMap.empty.insert t.start .onPath, [t.start], [], []⟩ id = decide (id = t.start) := by
        intro id
        by_cases hid : id = t.start <;> simp [hasMet, mark, Mark.isMet, hid]
      refine ⟨?_, ?_, ?_, ?_, fun _ => List.mem_singleton_self _, ?_⟩
      · intro id
        rw [if_pos rfl, hmet]
        simp
      · intro id hid
        rw [List.mem_singleton.1 hid]
        exact Tree.reaches_start hplayable
      · intro entry hentry
        rw [List.mem_singleton.1 hentry]
        exact List.mem_singleton_self _
      · intro entry hentry child hchild
        rw [List.mem_singleton.1 hentry] at hchild ⊢
        exact hchild
      · intro id hid child hchild
        rw [List.mem_singleton.1 hid] at hchild ⊢
        exact .inr ⟨_, List.mem_singleton_self _, hchild⟩
  | false =>
      exact ⟨by simp [hasMet, mark, Mark.isMet], by simp, by simp, by simp, by simp [hplayable], by simp⟩

section Step

variable {t : Tree} {w w' : Traversal} {id child : String} {more : List String}
  {path : List (String × List String)}

theorem sound_leave (h : Sound t w) (hpath : w.path = (id, []) :: path) :
    Sound t
      { w with path := path, marks := w.marks.insert id .done, finished := id :: w.finished } := by
  have hid : id ∈ w.preorder := h.path_met (id, []) (hpath ▸ List.mem_cons_self)
  have hrest : ∀ entry ∈ path, entry ∈ w.path := fun entry hentry =>
    hpath ▸ List.mem_cons_of_mem _ hentry
  refine ⟨fun key => ?_, h.preorder_reaches, fun entry hentry => h.path_met entry (hrest _ hentry),
    fun entry hentry => h.path_children entry (hrest _ hentry), h.start_met, ?_⟩
  · rw [hasMet_insert rfl rfl, Bool.or_eq_true, decide_eq_true_eq, h.met_iff]
    exact ⟨fun hkey => hkey.elim (fun heq => heq ▸ hid) fun hmem => hmem, .inr⟩
  · intro key hkey c hc
    rcases h.children_met key hkey c hc with hmet | ⟨more, hmem, hmore⟩
    · exact .inl hmet
    · rw [hpath] at hmem
      rcases List.mem_cons.1 hmem with heq | hmem
      · -- the node that is left has no child to look at any more
        rw [(Prod.mk.inj heq).2] at hmore
        exact absurd hmore List.not_mem_nil
      · exact .inr ⟨more, hmem, hmore⟩

theorem sound_descend (h : Sound t w) (hpath : w.path = (id, child :: more) :: path) :
    Sound t
      { w with
        path := (child, t.children child) :: (id, more) :: path
        marks := w.marks.insert child .onPath
        preorder := child :: w.preorder
        forward := (id, child) :: w.forward } := by
  have htop : (id, child :: more) ∈ w.path := hpath ▸ List.mem_cons_self
  have hid : id ∈ w.preorder := h.path_met _ htop
  have hrest : ∀ entry ∈ path, entry ∈ w.path := fun entry hentry =>
    hpath ▸ List.mem_cons_of_mem _ hentry
  refine ⟨fun key => ?_, ?_, ?_, ?_, fun hplayable => List.mem_cons_of_mem _ (h.start_met hplayable),
    ?_⟩
  · rw [hasMet_insert rfl rfl, Bool.or_eq_true, decide_eq_true_eq, h.met_iff]
    exact List.mem_cons.symm
  · intro key hkey
    rcases List.mem_cons.1 hkey with rfl | hkey
    · exact (h.preorder_reaches id hid).child (h.path_children _ htop _ List.mem_cons_self)
    · exact h.preorder_reaches key hkey
  · intro entry hentry
    rcases List.mem_cons.1 hentry with rfl | hentry
    · exact List.mem_cons_self
    · rcases List.mem_cons.1 hentry with rfl | hentry
      · exact List.mem_cons_of_mem _ hid
      · exact List.mem_cons_of_mem _ (h.path_met entry (hrest _ hentry))
  · intro entry hentry c hc
    rcases List.mem_cons.1 hentry with rfl | hentry
    · exact hc
    · rcases List.mem_cons.1 hentry with rfl | hentry
      · exact h.path_children _ htop c (List.mem_cons_of_mem _ hc)
      · exact h.path_children entry (hrest _ hentry) c hc
  · intro key hkey c hc
    rcases List.mem_cons.1 hkey with rfl | hkey
    · exact .inr ⟨_, List.mem_cons_self, hc⟩
    · rcases h.children_met key hkey c hc with hmet | ⟨rest, hmem, hmore⟩
      · exact .inl (List.mem_cons_of_mem _ hmet)
      · rw [hpath] at hmem
        rcases List.mem_cons.1 hmem with heq | hmem
        · obtain ⟨rfl, rfl⟩ := Prod.mk.inj heq
          rcases List.mem_cons.1 hmore with rfl | hmore
          · exact .inl List.mem_cons_self
          · exact .inr ⟨more, List.mem_cons_of_mem _ List.mem_cons_self, hmore⟩
        · exact .inr ⟨rest, List.mem_cons_of_mem _ (List.mem_cons_of_mem _ hmem), hmore⟩

/-- Looking at a child that has been met changes nothing but what is still to be looked at. -/
theorem sound_pass (h : Sound t w) (hpath : w.path = (id, child :: more) :: path)
    (hchild : w.hasMet child = true) (hpath' : w'.path = (id, more) :: path)
    (hmarks : w'.marks = w.marks) (hpreorder : w'.preorder = w.preorder) : Sound t w' := by
  have htop : (id, child :: more) ∈ w.path := hpath ▸ List.mem_cons_self
  have hrest : ∀ entry ∈ path, entry ∈ w.path := fun entry hentry =>
    hpath ▸ List.mem_cons_of_mem _ hentry
  refine ⟨fun key => ?_, ?_, ?_, ?_, ?_, ?_⟩
  · have hsame : w'.hasMet key = w.hasMet key := by simp only [hasMet, mark, hmarks]
    rw [hsame, hpreorder, h.met_iff]
  · rw [hpreorder]
    exact h.preorder_reaches
  · rw [hpath', hpreorder]
    intro entry hentry
    rcases List.mem_cons.1 hentry with rfl | hentry
    · exact h.path_met (id, child :: more) htop
    · exact h.path_met entry (hrest _ hentry)
  · rw [hpath']
    intro entry hentry c hc
    rcases List.mem_cons.1 hentry with rfl | hentry
    · exact h.path_children _ htop c (List.mem_cons_of_mem _ hc)
    · exact h.path_children entry (hrest _ hentry) c hc
  · rw [hpreorder]
    exact h.start_met
  · rw [hpath', hpreorder]
    intro key hkey c hc
    rcases h.children_met key hkey c hc with hmet | ⟨rest, hmem, hmore⟩
    · exact .inl hmet
    · rw [hpath] at hmem
      rcases List.mem_cons.1 hmem with heq | hmem
      · obtain ⟨rfl, rfl⟩ := Prod.mk.inj heq
        rcases List.mem_cons.1 hmore with rfl | hmore
        · exact .inl ((h.met_iff _).1 hchild)
        · exact .inr ⟨more, List.mem_cons_self, hmore⟩
      · exact .inr ⟨rest, List.mem_cons_of_mem _ hmem, hmore⟩

theorem sound_step (h : Sound t w) (hstep : step t w = some w') : Sound t w' := by
  cases moved_of_step hstep with
  | leave hpath => exact sound_leave h hpath
  | descend hpath hmark => exact sound_descend h hpath
  | skip hpath hmark => exact sound_pass h hpath (hasMet_of_mark hmark rfl) rfl rfl rfl
  | join hpath hmark => exact sound_pass h hpath (hasMet_of_mark hmark rfl) rfl rfl rfl

end Step

/-- What is left to do: the children still to be looked at and the nodes still to be left on the
path, and the same of the nodes that have not been met. -/
def remaining (t : Tree) (w : Traversal) : Nat :=
  (w.path.map fun entry => entry.2.length + 1).sum +
    unmetWeight t w.hasMet fun id => (t.children id).length + 1

section Remaining

variable {t : Tree} {w w' : Traversal} {id child : String} {more : List String}
  {path : List (String × List String)}

theorem remaining_leave (h : Sound t w) (hpath : w.path = (id, []) :: path)
    (hpath' : w'.path = path) (hmarks : w'.marks = w.marks.insert id .done) :
    remaining t w' < remaining t w := by
  have hid : id ∈ w.preorder := h.path_met (id, []) (hpath ▸ List.mem_cons_self)
  have hmet : w'.hasMet = w.hasMet := by
    funext key
    rw [hasMet_insert hmarks rfl]
    by_cases hkey : key = id
    · rw [hkey, (h.met_iff id).2 hid, Bool.or_true]
    · simp [hkey]
  simp only [remaining, hmet, hpath, hpath', List.map_cons, List.sum_cons]
  omega

theorem remaining_descend (h : Sound t w) (hpath : w.path = (id, child :: more) :: path)
    (hmark : w.mark child = .unseen)
    (hpath' : w'.path = (child, t.children child) :: (id, more) :: path)
    (hmarks : w'.marks = w.marks.insert child .onPath) : remaining t w' < remaining t w := by
  have htop : (id, child :: more) ∈ w.path := hpath ▸ List.mem_cons_self
  have hchild := h.path_children _ htop child List.mem_cons_self
  have hkey : child ∈ t.nodes.keys :=
    (Tree.hasNode_iff_mem_keys.1 (Tree.hasNode_of_mem_children hchild)).2
  have hnew : w.hasMet child = false := by rw [hasMet, hmark, Mark.isMet]
  have hweight := unmetWeight_meet (fun id => (t.children id).length + 1) hkey hnew
    (hasMet_insert hmarks rfl)
  simp only [remaining, hpath, hpath', List.map_cons, List.sum_cons, List.length_cons]
  omega

theorem remaining_pass (hpath : w.path = (id, child :: more) :: path)
    (hpath' : w'.path = (id, more) :: path) (hmarks : w'.marks = w.marks) :
    remaining t w' < remaining t w := by
  have hmet : w'.hasMet = w.hasMet := by
    funext key
    simp only [hasMet, mark, hmarks]
  simp only [remaining, hmet, hpath, hpath', List.map_cons, List.sum_cons, List.length_cons]
  omega

theorem remaining_step (h : Sound t w) (hstep : step t w = some w') :
    remaining t w' < remaining t w := by
  cases moved_of_step hstep with
  | leave hpath => exact remaining_leave h hpath rfl rfl
  | descend hpath hmark => exact remaining_descend h hpath hmark rfl rfl
  | skip hpath hmark => exact remaining_pass hpath rfl rfl
  | join hpath hmark => exact remaining_pass hpath rfl rfl

end Remaining

theorem remaining_start (t : Tree) : remaining t (start t) ≤ budget t := by
  have hall := unmetWeight_children_add_one t
  have hempty : hasMet ⟨[], .empty, [], [], []⟩ = fun _ => false := by
    funext key
    simp [hasMet, mark, Mark.isMet]
  cases hplayable : t.isPlayable with
  | true =>
      have hkey := (Tree.hasNode_iff_mem_keys.1 hplayable).2
      have hpath : (start t).path = [(t.start, t.children t.start)] := by simp [start, hplayable]
      have hmarks : (start t).marks = SortedMap.empty.insert t.start .onPath := by
        simp [start, hplayable]
      have hweight := unmetWeight_meet (fun id => (t.children id).length + 1) hkey
        (congrFun hempty t.start) (hasMet_insert hmarks rfl)
      rw [hempty] at hweight
      simp only [remaining, budget, hpath, List.map_cons, List.map_nil, List.sum_cons,
        List.sum_nil]
      omega
  | false =>
      have hstart : start t = ⟨[], .empty, [], [], []⟩ := by simp [start, hplayable]
      simp only [remaining, budget, hstart, hempty, List.map_nil, List.sum_nil]
      omega

theorem finish_keeps {t : Tree} {P : Traversal → Prop} (hstart : P (start t))
    (hstep : ∀ {w w'}, P w → step t w = some w' → P w') : P (finish t) :=
  iterate_keeps hstep hstart (budget t)

theorem finish_spec (t : Tree) : Sound t (finish t) ∧ (finish t).path = [] := by
  obtain ⟨hsound, hnone⟩ := iterate_spec (Sound t) (remaining t)
    (fun h hstep => ⟨sound_step h hstep, remaining_step h hstep⟩) (sound_start t)
    (remaining_start t)
  exact ⟨hsound, path_eq_nil_of_step_eq_none hnone⟩

theorem mem_preorder_iff {t : Tree} {id : String} :
    id ∈ (finish t).preorder ↔ t.Reaches id := by
  obtain ⟨hsound, hpath⟩ := finish_spec t
  constructor
  · exact hsound.preorder_reaches id
  · intro hreaches
    refine hreaches.rec_children (hsound.start_met hreaches.1) ?_
    intro key hkey child hchild
    rcases hsound.children_met key hkey child hchild with hmet | ⟨more, hmore, -⟩
    · exact hmet
    · rw [hpath] at hmore
      exact absurd hmore List.not_mem_nil

end Traversal

theorem mem_longestPath_iff {t : Tree} {id : String} :
    id ∈ (longestPath t).map (·.1) ↔ t.Reaches id := by
  rw [← Traversal.mem_preorder_iff]
  simp [longestPath]

end Dialogue.Layout
