import Dialogue.Layout.Numbered
import Dialogue.Proofs.Layout.Depth
import Dialogue.Proofs.Layout.Locality
/-!
# Walks by number and walks by id

The walks of the layout go by the ids of nodes.  On a fixed tree ids and numbers correspond, and a
walk by number takes the same steps under other names: `Represents` relates the states of both,
every step keeps it, and `order_eq_renamed` says that the orders and depths in the end are the same.
So no order depends on the numbers, and trees that are the same as far as play can reach have one
order (`renamed_order_eq`).
-/

namespace Dialogue

theorem getD_set {α : Type} {xs : List α} {i : Nat} (h : i < xs.length) (x d : α) (j : Nat) :
    (xs.set i x).getD j d = if j = i then x else xs.getD j d := by
  rw [List.getD_eq_getElem?_getD, List.getElem?_set, List.getD_eq_getElem?_getD]
  by_cases hj : j = i
  · rw [if_pos hj.symm, if_pos hj, if_pos h, Option.getD_some]
  · rw [if_neg (Ne.symm hj), if_neg hj]

theorem getD_replicate_self {α : Type} (n i : Nat) (d : α) : (List.replicate n d).getD i d = d := by
  rw [List.getD_eq_getElem?_getD, List.getElem?_getD_replicate_default_eq]

/-! ## Ids and numbers -/

namespace Tree

variable {t : Tree} {id : String} {i j : Nat}

theorem number?_eq_some_iff :
    t.number? id = some i ↔ id ≠ "" ∧ t.nodes.keys[i]? = some id := by
  unfold number?
  by_cases hid : id = ""
  · simp [hid]
  · rw [if_neg hid, List.findIdx?_eq_some_iff_getElem]
    constructor
    · rintro ⟨hi, heq, -⟩
      exact ⟨hid, List.getElem?_eq_some_iff.2 ⟨hi, of_decide_eq_true heq⟩⟩
    · rintro ⟨-, hkey⟩
      obtain ⟨hi, heq⟩ := List.getElem?_eq_some_iff.1 hkey
      refine ⟨hi, decide_eq_true heq, fun j hj hbefore => ?_⟩
      have hsame := (List.Nodup.getElem_inj_iff t.nodes.nodup).1
        ((of_decide_eq_true hbefore).trans heq.symm)
      omega

theorem isSome_number? (t : Tree) (id : String) : (t.number? id).isSome = t.hasNode id := by
  rw [Bool.eq_iff_iff, Option.isSome_iff_exists, hasNode_iff_mem_keys, List.mem_iff_getElem?]
  simp only [number?_eq_some_iff, exists_and_left]

theorem lt_of_number? (h : t.number? id = some i) : i < t.nodes.size := by
  obtain ⟨hi, -⟩ := List.getElem?_eq_some_iff.1 (number?_eq_some_iff.1 h).2
  exact hi.trans_eq (List.length_map _)

theorem idAt_of_number? (h : t.number? id = some i) : t.idAt i = id := by
  rw [idAt, List.getD_eq_getElem?_getD, (number?_eq_some_iff.1 h).2, Option.getD_some]

theorem idAt_inj (hi : i < t.nodes.size) (hj : j < t.nodes.size) :
    t.idAt i = t.idAt j ↔ i = j := by
  have hsize : t.nodes.keys.length = t.nodes.size := List.length_map _
  rw [idAt, idAt, List.getD_eq_getElem _ _ (hi.trans_eq hsize.symm),
    List.getD_eq_getElem _ _ (hj.trans_eq hsize.symm)]
  exact List.Nodup.getElem_inj_iff t.nodes.nodup

theorem map_idAt_filterMap_number? (t : Tree) (ids : List String) :
    (ids.filterMap t.number?).map t.idAt = ids.filter t.hasNode := by
  induction ids with
  | nil => rfl
  | cons id ids ih =>
      have hsome := t.isSome_number? id
      cases hnumber : t.number? id with
      | none =>
          rw [hnumber] at hsome
          rw [List.filterMap_cons_none hnumber, ih, List.filter_cons_of_neg (by simp [← hsome])]
      | some i =>
          rw [hnumber] at hsome
          rw [List.filterMap_cons_some hnumber, List.map_cons, ih, idAt_of_number? hnumber,
            List.filter_cons_of_pos (by simp [← hsome])]

end Tree

namespace Layout.Numbered

variable {t : Tree} {i child : Nat}

theorem size_of (t : Tree) : (of t).size = t.nodes.size := by
  simp [size, of, Catalog.values, Catalog.size]

theorem childrenAt_of_entry {id : String} {n : Node} (h : t.nodes.entries[i]? = some (id, n)) :
    (of t).childrenAt i = (n.choices.flatMap Choice.targets).filterMap t.number? := by
  simp [childrenAt, of, Catalog.values, List.getD_eq_getElem?_getD, h]

theorem children_of_entry {id : String} {n : Node} (h : (id, n) ∈ t.nodes.entries) :
    t.children id = (n.choices.flatMap Choice.targets).filter t.hasNode := by
  have hn : t.node? id = some n := Catalog.get?_eq_some_iff.2 h
  rw [Tree.children, hn]

theorem map_idAt_childrenAt (h : i < t.nodes.size) :
    ((of t).childrenAt i).map t.idAt = t.children (t.idAt i) := by
  obtain ⟨⟨id, n⟩, hentry⟩ : ∃ entry, t.nodes.entries[i]? = some entry :=
    ⟨_, List.getElem?_eq_getElem h⟩
  have hid : t.idAt i = id := by
    simp [Tree.idAt, Catalog.keys, List.getD_eq_getElem?_getD, hentry]
  rw [childrenAt_of_entry hentry, Tree.map_idAt_filterMap_number?, hid,
    children_of_entry (List.mem_of_getElem? hentry)]

theorem lt_of_mem_childrenAt (h : child ∈ (of t).childrenAt i) : child < t.nodes.size := by
  unfold childrenAt of at h
  rw [List.getD_eq_getElem?_getD, List.getElem?_map] at h
  cases hn : t.nodes.values[i]? with
  | none => simp [hn] at h
  | some n =>
      rw [hn, Option.map_some, Option.getD_some] at h
      obtain ⟨id, -, hnumber⟩ := List.mem_filterMap.1 h
      exact Tree.lt_of_number? hnumber

theorem edgeCount_of (t : Tree) : (of t).edgeCount = t.edgeCount := by
  simp only [edgeCount, of, Tree.edgeCount, Catalog.values, Catalog.keys, List.length_flatten,
    List.length_flatMap, List.map_map]
  refine congrArg List.sum (List.map_congr_left fun entry hentry => ?_)
  have hmap := t.map_idAt_filterMap_number? (entry.2.choices.flatMap Choice.targets)
  rw [Function.comp_apply, Function.comp_apply, Function.comp_apply, children_of_entry hentry,
    ← hmap, List.length_map]

end Layout.Numbered

namespace Layout

/-- Iterations whose steps keep a relation end in related states. -/
theorem iterate_rel {σ τ : Type} {R : σ → τ → Prop} {step : σ → Option σ} {step' : τ → Option τ}
    (hstep : ∀ {s s'}, R s s' → Option.Rel R (step s) (step' s')) (budget : Nat) {s : σ} {s' : τ}
    (h : R s s') : R (iterate step budget s) (iterate step' budget s') := by
  induction budget generalizing s s' with
  | zero => exact h
  | succ budget ih =>
      have hnext := hstep h
      unfold iterate
      cases hs : step s <;> cases hs' : step' s' <;> rw [hs, hs'] at hnext
      · exact h
      · cases hnext
      · cases hnext
      · cases hnext with
        | some hnext => exact ih hnext

namespace Numbered

variable {t : Tree}

/-! ## The walk with a stack -/

namespace Discovery

/-- The walk by number stands where the walk by id stands. -/
structure Represents (t : Tree) (d : Discovery) (d' : Layout.Discovery) : Prop where
  stack_eq : d'.stack = d.stack.map fun entry => (t.idAt entry.1, entry.2)
  reached_eq : d'.reached.reverse = d.order.map fun i => (t.idAt i, d.depths.getD i 0)
  visited_iff : ∀ i, d.visited.getD i false = true ↔ i ∈ d.order
  stack_lt : ∀ entry ∈ d.stack, entry.1 < t.nodes.size
  order_lt : ∀ i ∈ d.order, i < t.nodes.size
  length_visited : d.visited.length = t.nodes.size
  length_depths : d.depths.length = t.nodes.size

variable {d : Discovery} {d' : Layout.Discovery} {i depth : Nat} {stack : List (Nat × Nat)}

theorem Represents.hasReached_eq (h : Represents t d d') (hi : i < t.nodes.size) :
    d'.hasReached (t.idAt i) = d.visited.getD i false := by
  rw [Bool.eq_iff_iff, Layout.Discovery.hasReached_iff, h.visited_iff, ← List.mem_reverse,
    ← List.map_reverse, h.reached_eq, List.map_map, List.mem_map]
  constructor
  · rintro ⟨j, hj, heq⟩
    exact (Tree.idAt_inj (h.order_lt j hj) hi).1 heq ▸ hj
  · exact fun hmem => ⟨i, hmem, rfl⟩

theorem represents_start (t : Tree) : Represents t (start (of t)) (Layout.Discovery.start t) where
  stack_eq := by
    have hstart : t.isPlayable = (t.number? t.start).isSome := (t.isSome_number? t.start).symm
    rw [Layout.Discovery.start, hstart]
    cases hnumber : t.number? t.start with
    | none => simp [start, of, hnumber]
    | some i => simp [start, of, hnumber, Tree.idAt_of_number? hnumber]
  reached_eq := rfl
  visited_iff i := by
    simp only [start, List.getD_eq_getElem?_getD, List.getElem?_replicate]
    split <;> simp
  stack_lt := by
    intro entry hentry
    obtain ⟨i, hi, rfl⟩ := List.mem_map.1 hentry
    exact Tree.lt_of_number? (Option.mem_toList.1 hi)
  order_lt _ hi := absurd hi List.not_mem_nil
  length_visited := by simp [start, size_of]
  length_depths := by simp [start, size_of]

theorem Represents.visited_set (h : Represents t d d') (hi : i < t.nodes.size) (j : Nat) :
    (d.visited.set i true).getD j false = (decide (j = i) || d.visited.getD j false) := by
  rw [getD_set (hi.trans_eq h.length_visited.symm)]
  by_cases hj : j = i <;> simp [hj]

theorem Represents.next_eq (h : Represents t d d') (hi : i < t.nodes.size) (depth : Nat) :
    (t.children (t.idAt i)).filter
        (fun id => !(Layout.Discovery.takeUp t d' (t.idAt i) depth []).hasReached id) =
      (((of t).childrenAt i).filter
        fun child => !(d.visited.set i true).getD child false).map t.idAt := by
  rw [← map_idAt_childrenAt hi, List.filter_map]
  refine congrArg (List.map t.idAt) (List.filter_congr fun child hchild => ?_)
  have hlt := lt_of_mem_childrenAt hchild
  rw [Function.comp_apply, Layout.Discovery.hasReached_takeUp, h.hasReached_eq hlt,
    h.visited_set hi, decide_eq_decide.2 (Tree.idAt_inj hlt hi)]

theorem Represents.visit (h : Represents t d d') (hstack : d.stack = (i, depth) :: stack)
    (hnew : d.visited.getD i false = false) :
    Represents t (d.visit (of t) i depth stack)
      (Layout.Discovery.takeUp t d' (t.idAt i) depth
        (stack.map fun entry => (t.idAt entry.1, entry.2))) := by
  have hi : i < t.nodes.size := h.stack_lt (i, depth) (hstack ▸ List.mem_cons_self)
  have hfresh : i ∉ d.order := by
    rw [← h.visited_iff, hnew]
    simp
  refine {
    stack_eq := ?_
    reached_eq := ?_
    visited_iff := ?_
    stack_lt := ?_
    order_lt := ?_
    length_visited := (List.length_set ..).trans h.length_visited
    length_depths := (List.length_set ..).trans h.length_depths }
  · change ((t.children (t.idAt i)).filter
      fun id => !(Layout.Discovery.takeUp t d' (t.idAt i) depth []).hasReached id).map _ ++ _ = _
    rw [h.next_eq hi, Discovery.visit, List.map_append, List.map_map, List.map_map]
    rfl
  · change ((t.idAt i, depth) :: d'.reached).reverse = _
    rw [List.reverse_cons, h.reached_eq, Discovery.visit, List.map_append]
    have hdepths := getD_set (hi.trans_eq h.length_depths.symm) depth 0
    refine congrArg₂ (· ++ ·) (List.map_congr_left fun j hj => ?_) ?_
    · have hne : j ≠ i := fun heq => hfresh (heq ▸ hj)
      rw [hdepths, if_neg hne]
    · rw [List.map_singleton, hdepths, if_pos rfl]
  · intro j
    simp only [Discovery.visit, h.visited_set hi, List.mem_append, List.mem_singleton,
      Bool.or_eq_true, decide_eq_true_eq, h.visited_iff, or_comm]
  · intro entry hentry
    rcases List.mem_append.1 hentry with hmem | hmem
    · obtain ⟨child, hchild, rfl⟩ := List.mem_map.1 hmem
      exact lt_of_mem_childrenAt (List.mem_filter.1 hchild).1
    · exact h.stack_lt entry (hstack ▸ List.mem_cons_of_mem _ hmem)
  · intro j hj
    rcases List.mem_append.1 hj with hj | hj
    · exact h.order_lt j hj
    · exact List.mem_singleton.1 hj ▸ hi

theorem Represents.step (h : Represents t d d') :
    Option.Rel (Represents t) (step (of t) d) (Layout.Discovery.step t d') := by
  unfold Discovery.step Layout.Discovery.step
  rw [h.stack_eq]
  cases hstack : d.stack with
  | nil => exact .none
  | cons entry stack =>
      obtain ⟨i, depth⟩ := entry
      have hi : i < t.nodes.size := h.stack_lt (i, depth) (hstack ▸ List.mem_cons_self)
      have hreached := h.hasReached_eq hi
      simp only [List.map_cons, hreached]
      cases hvisited : d.visited.getD i false with
      | true =>
          exact .some { h with
            stack_eq := rfl
            stack_lt := fun entry hentry =>
              h.stack_lt entry (hstack ▸ List.mem_cons_of_mem _ hentry) }
      | false => exact .some (h.visit hstack hvisited)

theorem represents_finish (t : Tree) :
    Represents t (finish (of t)) (Layout.Discovery.finish t) := by
  rw [finish, edgeCount_of]
  exact iterate_rel (fun h => h.step) _ (represents_start t)

/-- The walk by number comes to its end within its budget. -/
theorem stack_finish (t : Tree) : (finish (of t)).stack = [] := by
  rw [← List.map_eq_nil_iff, ← (represents_finish t).stack_eq]
  exact (Layout.Discovery.finish_spec t).2

end Discovery

/-! ## The walk along paths -/

namespace Traversal

/-- A path by id: instead of the number of children that have been looked at, each node has the
children that are left. -/
def pathOf (t : Tree) (stack : List (Nat × Nat)) : List (String × List String) :=
  stack.map fun entry => (t.idAt entry.1, (((of t).childrenAt entry.1).drop entry.2).map t.idAt)

structure Represents (t : Tree) (w : Traversal) (w' : Layout.Traversal) : Prop where
  path_eq : w'.path = pathOf t w.stack
  mark_eq : ∀ i < t.nodes.size, w'.mark (t.idAt i) = w.marks.getD i .unseen
  preorder_eq : w'.preorder.reverse = w.preorder.map t.idAt
  finished_eq : w'.finished.reverse = w.postorder.map t.idAt
  forward_eq : ∀ i < t.nodes.size, (w'.forward.reverse.filter fun edge => edge.1 = t.idAt i) =
    (w.forward.getD i []).map fun child => (t.idAt i, t.idAt child)
  stack_lt : ∀ entry ∈ w.stack, entry.1 < t.nodes.size
  preorder_lt : ∀ i ∈ w.preorder, i < t.nodes.size
  postorder_lt : ∀ i ∈ w.postorder, i < t.nodes.size
  forward_lt : ∀ i, ∀ child ∈ w.forward.getD i [], child < t.nodes.size
  length_marks : w.marks.length = t.nodes.size
  length_forward : w.forward.length = t.nodes.size

variable {w : Traversal} {w' : Layout.Traversal} {i child next : Nat} {stack : List (Nat × Nat)}

theorem represents_start (t : Tree) : Represents t (start (of t)) (Layout.Traversal.start t) := by
  have hstart : t.isPlayable = (t.number? t.start).isSome := (t.isSome_number? t.start).symm
  have hfirst : (of t).start? = t.number? t.start := rfl
  unfold Layout.Traversal.start start
  rw [hstart, hfirst]
  cases hnumber : t.number? t.start with
  | none =>
      exact {
        path_eq := rfl
        mark_eq := fun i _ => (getD_replicate_self _ i _).symm
        preorder_eq := rfl
        finished_eq := rfl
        forward_eq := fun i _ => by rw [getD_replicate_self]; rfl
        stack_lt := by simp
        preorder_lt := by simp
        postorder_lt := by simp
        forward_lt := by simp
        length_marks := by simp [size_of]
        length_forward := by simp [size_of] }
  | some first =>
      have hlt := Tree.lt_of_number? hnumber
      have hid := Tree.idAt_of_number? hnumber
      exact {
        path_eq := by simp [pathOf, hid, map_idAt_childrenAt hlt]
        mark_eq := by
          intro i hi
          rw [getD_set (by simpa [size_of] using hlt), getD_replicate_self, ← hid,
            Option.isSome_some, if_pos rfl, Layout.Traversal.mark, SortedMap.get?_insert]
          simp only [Tree.idAt_inj hi hlt]
          split <;> rfl
        preorder_eq := by simp [hid]
        finished_eq := rfl
        forward_eq := fun i _ => by rw [getD_replicate_self]; rfl
        stack_lt := by simpa using hlt
        preorder_lt := by simpa using hlt
        postorder_lt := by simp
        forward_lt := by simp
        length_marks := by simp [size_of]
        length_forward := by simp [size_of] }

/-! ### One step -/

theorem Represents.mark_set (h : Represents t w w') (hi : i < t.nodes.size) {m : Mark}
    {v' : Layout.Traversal} (hmarks : v'.marks = w'.marks.insert (t.idAt i) m) :
    ∀ j < t.nodes.size, v'.mark (t.idAt j) = (w.marks.set i m).getD j .unseen := by
  intro j hj
  rw [Layout.Traversal.mark_insert hmarks, getD_set (hi.trans_eq h.length_marks.symm),
    h.mark_eq j hj]
  simp only [Tree.idAt_inj hj hi]

theorem Represents.forward_keep (h : Represents t w w') (hi : i < t.nodes.size) (child : Nat) :
    ∀ j < t.nodes.size,
      (((t.idAt i, t.idAt child) :: w'.forward).reverse.filter fun edge => edge.1 = t.idAt j) =
        ((w.keep i child).getD j []).map fun child => (t.idAt j, t.idAt child) := by
  intro j hj
  rw [List.reverse_cons, List.filter_append, h.forward_eq j hj, keep,
    getD_set (hi.trans_eq h.length_forward.symm)]
  by_cases heq : j = i
  · subst heq
    simp
  · have hne : t.idAt i ≠ t.idAt j := fun hsame => heq ((Tree.idAt_inj hi hj).1 hsame).symm
    simp [heq, hne]

theorem Represents.keep_lt (h : Represents t w w') (hi : i < t.nodes.size)
    (hchild : child < t.nodes.size) : ∀ j, ∀ other ∈ (w.keep i child).getD j [],
      other < t.nodes.size := by
  intro j other hother
  rw [keep, getD_set (hi.trans_eq h.length_forward.symm)] at hother
  split at hother
  · rcases List.mem_append.1 hother with hmem | hmem
    · exact h.forward_lt i other hmem
    · exact List.mem_singleton.1 hmem ▸ hchild
  · exact h.forward_lt j other hother

theorem Represents.leave (h : Represents t w w') (hstack : w.stack = (i, next) :: stack) :
    Represents t
      { w with stack := stack, marks := w.marks.set i .done, postorder := w.postorder ++ [i] }
      { w' with
        path := pathOf t stack
        marks := w'.marks.insert (t.idAt i) .done
        finished := t.idAt i :: w'.finished } := by
  have hi : i < t.nodes.size := h.stack_lt (i, next) (hstack ▸ List.mem_cons_self)
  exact { h with
    path_eq := rfl
    mark_eq := h.mark_set hi rfl
    finished_eq := by rw [List.reverse_cons, h.finished_eq, List.map_append, List.map_singleton]
    stack_lt := fun entry hentry => h.stack_lt entry (hstack ▸ List.mem_cons_of_mem _ hentry)
    postorder_lt := fun j hj => (List.mem_append.1 hj).elim (h.postorder_lt j)
      fun hj => List.mem_singleton.1 hj ▸ hi
    length_marks := (List.length_set ..).trans h.length_marks }

/-- A child has been looked at, and no more is done about it. -/
theorem Represents.pass (h : Represents t w w') (hstack : w.stack = (i, next) :: stack) :
    Represents t { w with stack := (i, next + 1) :: stack }
      { w' with path := pathOf t ((i, next + 1) :: stack) } where
  __ := h
  path_eq := rfl
  stack_lt := by
    have hall := h.stack_lt
    rw [hstack, List.forall_mem_cons] at hall
    exact List.forall_mem_cons.2 hall

theorem Represents.keep (h : Represents t w w') (hi : i < t.nodes.size)
    (hchild : child < t.nodes.size) :
    Represents t { w with forward := w.keep i child }
      { w' with forward := (t.idAt i, t.idAt child) :: w'.forward } where
  __ := h
  forward_eq := h.forward_keep hi child
  forward_lt := h.keep_lt hi hchild
  length_forward := (List.length_set ..).trans h.length_forward

theorem Represents.enter (h : Represents t w w') (hchild : child < t.nodes.size) :
    Represents t
      { w with
        stack := (child, 0) :: w.stack
        marks := w.marks.set child .onPath
        preorder := w.preorder ++ [child] }
      { w' with
        path := (t.idAt child, t.children (t.idAt child)) :: w'.path
        marks := w'.marks.insert (t.idAt child) .onPath
        preorder := t.idAt child :: w'.preorder } where
  __ := h
  path_eq := by
    rw [h.path_eq, pathOf, pathOf, List.map_cons, List.drop_zero, map_idAt_childrenAt hchild]
  mark_eq := h.mark_set hchild rfl
  preorder_eq := by rw [List.reverse_cons, h.preorder_eq, List.map_append, List.map_singleton]
  stack_lt := List.forall_mem_cons.2 ⟨hchild, h.stack_lt⟩
  preorder_lt := fun j hj => (List.mem_append.1 hj).elim (h.preorder_lt j)
    fun hj => List.mem_singleton.1 hj ▸ hchild
  length_marks := (List.length_set ..).trans h.length_marks

theorem Represents.step (h : Represents t w w') :
    Option.Rel (Represents t) (step (of t) w) (Layout.Traversal.step t w') := by
  unfold Traversal.step Layout.Traversal.step
  rw [h.path_eq]
  cases hstack : w.stack with
  | nil => exact .none
  | cons entry stack =>
      obtain ⟨i, next⟩ := entry
      have hi : i < t.nodes.size := h.stack_lt (i, next) (hstack ▸ List.mem_cons_self)
      cases hnext : ((of t).childrenAt i)[next]? with
      | none =>
          have hdrop : ((of t).childrenAt i).drop next = [] :=
            List.drop_eq_nil_of_le (List.getElem?_eq_none_iff.1 hnext)
          simp only [pathOf, List.map_cons, hdrop, List.map_nil, hnext]
          exact .some (h.leave hstack)
      | some child =>
          have hchild := lt_of_mem_childrenAt (List.mem_of_getElem? hnext)
          have hdrop : ((of t).childrenAt i).drop next =
              child :: ((of t).childrenAt i).drop (next + 1) := by
            obtain ⟨hlt, rfl⟩ := List.getElem?_eq_some_iff.1 hnext
            exact List.drop_eq_getElem_cons hlt
          simp only [pathOf, List.map_cons, hdrop, hnext, h.mark_eq child hchild]
          cases w.marks.getD child .unseen with
          | unseen => exact .some (((h.pass hstack).keep hi hchild).enter hchild)
          | onPath => exact .some (h.pass hstack)
          | done => exact .some ((h.pass hstack).keep hi hchild)

theorem represents_finish (t : Tree) :
    Represents t (finish (of t)) (Layout.Traversal.finish t) := by
  rw [finish, edgeCount_of, size_of]
  exact iterate_rel (fun h => h.step) _ (represents_start t)

/-- The walk by number comes to its end within its budget. -/
theorem stack_finish (t : Tree) : (finish (of t)).stack = [] := by
  have hpath : pathOf t (finish (of t)).stack = [] := by
    rw [← (represents_finish t).path_eq]
    exact (Layout.Traversal.finish_spec t).2
  exact List.map_eq_nil_iff.1 hpath

end Traversal

/-! ## Depths -/

structure SameDepths (t : Tree) (depths : List Nat) (depths' : SortedMap Nat) : Prop where
  length_eq : depths.length = t.nodes.size
  depth_eq : ∀ i < t.nodes.size, depthOf depths' (t.idAt i) = depths.getD i 0

variable {depths : List Nat} {depths' : SortedMap Nat} {i child : Nat}

theorem SameDepths.relaxChild (h : SameDepths t depths depths') (hi : i < t.nodes.size)
    (hchild : child < t.nodes.size) :
    SameDepths t (relaxChild i depths child) (relaxEdge depths' (t.idAt i, t.idAt child)) where
  length_eq := (List.length_set ..).trans h.length_eq
  depth_eq := by
    intro j hj
    rw [depthOf_relaxEdge, Numbered.relaxChild, getD_set (hchild.trans_eq h.length_eq.symm),
      h.depth_eq j hj, h.depth_eq i hi]
    simp only [Tree.idAt_inj hj hchild]
    split
    next heq => rw [heq]
    next => rfl

theorem SameDepths.relaxChildren (h : SameDepths t depths depths') (hi : i < t.nodes.size)
    {children : List Nat} (hchildren : ∀ child ∈ children, child < t.nodes.size) :
    SameDepths t (children.foldl (Numbered.relaxChild i) depths)
      ((children.map fun child => (t.idAt i, t.idAt child)).foldl relaxEdge depths') := by
  induction children generalizing depths depths' with
  | nil => exact h
  | cons child children ih =>
      obtain ⟨hchild, hrest⟩ := List.forall_mem_cons.1 hchildren
      exact ih (h.relaxChild hi hchild) hrest

theorem SameDepths.relaxNodes {w : Traversal} {w' : Layout.Traversal} (hw : w.Represents t w')
    {nodes : List Nat} (hnodes : ∀ i ∈ nodes, i < t.nodes.size) (h : SameDepths t depths depths') :
    SameDepths t
      (nodes.foldl (fun depths i => (w.forward.getD i []).foldl (Numbered.relaxChild i) depths)
        depths)
      ((nodes.map t.idAt).foldl (relaxNode w'.forward.reverse) depths') := by
  induction nodes generalizing depths depths' with
  | nil => exact h
  | cons i nodes ih =>
      obtain ⟨hi, hrest⟩ := List.forall_mem_cons.1 hnodes
      refine ih hrest ?_
      rw [relaxNode, hw.forward_eq i hi]
      exact h.relaxChildren hi (hw.forward_lt i)

theorem sameDepths_relaxed {w : Traversal} {w' : Layout.Traversal} (h : w.Represents t w') :
    SameDepths t (relaxed (of t) w) (Layout.relaxed w') := by
  have hfinished : w'.finished = w.postorder.reverse.map t.idAt := by
    rw [← List.reverse_reverse w'.finished, h.finished_eq, List.map_reverse]
  have hstart : SameDepths t (List.replicate (of t).size 0) .empty :=
    ⟨by simp [size_of], fun i _ => (getD_replicate_self _ i 0).symm⟩
  rw [relaxed, Layout.relaxed, hfinished]
  exact hstart.relaxNodes h fun i hi => h.postorder_lt i (List.mem_reverse.1 hi)

/-! ## Orders and depths -/

def renamed (t : Tree) (found : List Nat × List Nat) : List (String × Nat) :=
  found.1.map fun i => (t.idAt i, found.2.getD i 0)

end Numbered

/-- The walks by number find the same nodes in the same order and at the same depths. -/
theorem order_eq_renamed (t : Tree) (mode : Mode) :
    order t mode = Numbered.renamed t ((Numbered.of t).order mode) := by
  cases mode with
  | firstDiscovery => exact (Numbered.Discovery.represents_finish t).reached_eq
  | compact =>
      have h := Numbered.Traversal.represents_finish t
      have hdepths := Numbered.sameDepths_relaxed h
      rw [order, longestPath, h.preorder_eq, List.map_map]
      refine List.map_congr_left fun i hi => ?_
      exact congrArg (Prod.mk _) (hdepths.depth_eq i (h.preorder_lt i hi))

/-- Numbers play no part: in trees that are the same as far as play can reach, the nodes that are
reached may have other numbers, but they have the same ids, order and depths. -/
theorem renamed_order_eq {t u : Tree} (h : t.SameInReach u) (mode : Mode) :
    Numbered.renamed u ((Numbered.of u).order mode) =
      Numbered.renamed t ((Numbered.of t).order mode) := by
  rw [← order_eq_renamed, ← order_eq_renamed, order_eq h]

end Layout

end Dialogue
