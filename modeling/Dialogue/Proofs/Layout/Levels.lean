import Dialogue.Proofs.Layout.Depth
/-!
# Nodes in levels

A layout takes the nodes of a depth-first walk level by level.  That is the stable sort of the walk
by depth: no node is lost or made up, and those of a level keep their order.  No level is empty, for
in both modes a node that is not the start stands one level below one that leads to it.
-/

namespace Dialogue

/-! ## Sorting by a number -/

section Sorting

variable {α : Type}

theorem filter_append_filter_not {p : α → Bool} {as : List α}
    (h : as.Pairwise fun a b => p b = true → p a = true) :
    as.filter p ++ as.filter (fun a => !p a) = as := by
  induction as with
  | nil => rfl
  | cons a as ih =>
      obtain ⟨hhead, htail⟩ := List.pairwise_cons.1 h
      cases hp : p a with
      | true =>
          rw [List.filter_cons_of_pos hp, List.filter_cons_of_neg (by simp [hp]), List.cons_append,
            ih htail]
      | false =>
          have hnot : ∀ b ∈ as, p b = false := by
            intro b hb
            cases hpb : p b with
            | false => rfl
            | true => rw [← hp, hhead b hb hpb]
          have hnone : as.filter p = [] :=
            List.filter_eq_nil_iff.2 fun b hb => by simp [hnot b hb]
          have hall : as.filter (fun a => !p a) = as :=
            List.filter_eq_self.2 fun b hb => by simp [hnot b hb]
          rw [List.filter_cons_of_neg (by simp [hp]), List.filter_cons_of_pos (by simp [hp]), hnone,
            hall, List.nil_append]

variable (key : α → Nat)

/-- Picking out one number after the other leaves a sorted list as it is. -/
theorem flatMap_filter_of_sorted {as : List α} (h : as.Pairwise fun a b => key a ≤ key b)
    (n : Nat) :
    ((List.range n).flatMap fun d => as.filter fun a => key a = d) =
      as.filter fun a => key a < n := by
  induction n with
  | zero => simp
  | succ n ih =>
      have hdown : (as.filter fun a => key a < n + 1).Pairwise fun a b =>
          decide (key b < n) = true → decide (key a < n) = true := by
        refine (h.filter _).imp fun {a b} hle hlt => ?_
        exact decide_eq_true (Nat.lt_of_le_of_lt hle (of_decide_eq_true hlt))
      have hlow : (as.filter fun a => key a < n) =
          (as.filter fun a => key a < n + 1).filter fun a => key a < n := by
        rw [List.filter_filter]
        refine List.filter_congr fun a _ => ?_
        rw [← Bool.decide_and, decide_eq_decide]
        omega
      have hlast : (as.filter fun a => key a = n) =
          (as.filter fun a => key a < n + 1).filter fun a => !decide (key a < n) := by
        rw [List.filter_filter]
        refine List.filter_congr fun a _ => ?_
        rw [← decide_not, ← Bool.decide_and, decide_eq_decide]
        omega
      rw [List.range_succ, List.flatMap_append, ih, List.flatMap_singleton, hlow, hlast,
        filter_append_filter_not hdown]

theorem le_key_trans (a b c : α) (hab : decide (key a ≤ key b) = true)
    (hbc : decide (key b ≤ key c) = true) : decide (key a ≤ key c) = true :=
  decide_eq_true (Nat.le_trans (of_decide_eq_true hab) (of_decide_eq_true hbc))

theorem le_key_total (a b : α) : (decide (key a ≤ key b) || decide (key b ≤ key a)) = true := by
  simpa using Nat.le_total (key a) (key b)

theorem sorted_mergeSort (as : List α) :
    (as.mergeSort fun a b => key a ≤ key b).Pairwise fun a b => key a ≤ key b :=
  (List.pairwise_mergeSort (le_key_trans key) (le_key_total key) as).imp of_decide_eq_true

/-- The sort is stable: elements with the same number keep their order. -/
theorem filter_mergeSort (as : List α) (d : Nat) :
    ((as.mergeSort fun a b => key a ≤ key b).filter fun a => key a = d) =
      as.filter fun a => key a = d := by
  have hsame : (as.filter fun a => key a = d).Pairwise
      fun a b => decide (key a ≤ key b) = true := by
    refine List.pairwise_of_forall_mem_list fun a ha b hb => ?_
    have hda : key a = d := by simpa using (List.mem_filter.1 ha).2
    have hdb : key b = d := by simpa using (List.mem_filter.1 hb).2
    exact decide_eq_true (by omega)
  have hsub : (as.filter fun a => key a = d).Sublist (as.mergeSort fun a b => key a ≤ key b) :=
    List.sublist_mergeSort (le_key_trans key) (le_key_total key) hsame List.filter_sublist
  have hfilter := hsub.filter fun a => decide (key a = d)
  rw [List.filter_filter] at hfilter
  simp only [Bool.and_self] at hfilter
  refine (hfilter.eq_of_length ?_).symm
  exact ((List.mergeSort_perm as _).filter _).length_eq.symm

theorem flatMap_filter_eq_mergeSort {as : List α} {n : Nat} (h : ∀ a ∈ as, key a < n) :
    ((List.range n).flatMap fun d => as.filter fun a => key a = d) =
      as.mergeSort fun a b => key a ≤ key b := by
  calc ((List.range n).flatMap fun d => as.filter fun a => key a = d)
      = (List.range n).flatMap fun d =>
          (as.mergeSort fun a b => key a ≤ key b).filter fun a => key a = d := by
        simp only [filter_mergeSort]
    _ = (as.mergeSort fun a b => key a ≤ key b).filter fun a => key a < n :=
        flatMap_filter_of_sorted key (sorted_mergeSort key as) n
    _ = as.mergeSort fun a b => key a ≤ key b :=
        List.filter_eq_self.2 fun a ha => decide_eq_true (h a (List.mem_mergeSort.1 ha))

end Sorting

namespace Layout

variable {t : Tree} {mode : Mode} {id : String} {depth : Nat}

/-! ## The walk sorted into levels -/

section Placing

variable {α : Type} [Coordinate α]

theorem entries_placedLevel (t : Tree) (config : Config α) (depth : Nat) (ids : List String) :
    (placedLevel t config depth ids).map (fun card => (card.id, card.depth)) =
      ids.map fun id => (id, depth) := by
  calc (placedLevel t config depth ids).map (fun card => (card.id, card.depth))
      = (placedLevel t config depth ids).map (fun card => (card.id, depth)) :=
        List.map_congr_left fun card hcard => by rw [depth_of_mem_placedLevel hcard]
    _ = ((placedLevel t config depth ids).map (·.id)).map fun id => (id, depth) := by
        rw [List.map_map]
        rfl
    _ = ids.map fun id => (id, depth) := by rw [ids_placedLevel]

theorem zipIdx_levels (order : List (String × Nat)) :
    (levels order).zipIdx =
      (List.range (order.foldl (fun n entry => max n (entry.2 + 1)) 0)).map fun depth =>
        ((order.filter fun entry => entry.2 = depth).map (·.1), depth) := by
  refine List.ext_getElem (by simp [levels]) fun depth hdepth hdepth' => ?_
  simp [levels]

/-- Cards are placed in the stable sort of the walk by depth. -/
theorem entries_placedNodes (t : Tree) (config : Config α) (order : List (String × Nat)) :
    (placedNodes t config order).map (fun card => (card.id, card.depth)) =
      order.mergeSort fun a b => a.2 ≤ b.2 := by
  have hlevel : ∀ depth, ((order.filter fun entry => entry.2 = depth).map (·.1)).map
      (fun id => (id, depth)) = order.filter fun entry => entry.2 = depth := by
    intro depth
    rw [List.map_map]
    refine (List.map_congr_left fun entry hentry => ?_).trans (List.map_id _)
    have hdepth : entry.2 = depth := by simpa using (List.mem_filter.1 hentry).2
    rw [← hdepth]
    rfl
  simp only [placedNodes, zipIdx_levels, List.map_flatMap, List.flatMap_map, entries_placedLevel,
    hlevel]
  exact flatMap_filter_eq_mergeSort (·.2) fun entry hentry => lt_foldl_levelCount hentry 0

end Placing

theorem nodup_reachableIds (t : Tree) : (reachableIds t).Nodup := by
  rw [reachableIds_eq_trails, List.nodup_reverse]
  exact (grounded_trails t).ids_nodup

theorem ids_order (t : Tree) (mode : Mode) : (order t mode).map (·.1) = reachableIds t := by
  cases mode with
  | firstDiscovery => rfl
  | compact => exact ids_longestPath t

/-! ## No level is empty -/

theorem mem_firstDiscovery_iff :
    (id, depth) ∈ firstDiscovery t ↔ ∃ path, (id, path) ∈ trails t ∧ path.length = depth := by
  rw [firstDiscovery_eq_trails, List.mem_reverse, List.mem_map]
  constructor
  · rintro ⟨⟨_, path⟩, hpath, heq⟩
    obtain ⟨rfl, hlength⟩ := Prod.mk.inj heq
    exact ⟨path, hpath, hlength⟩
  · rintro ⟨path, hpath, rfl⟩
    exact ⟨_, hpath, rfl⟩

theorem mem_longestPath_depth_iff :
    (id, depth) ∈ longestPath t ↔ t.Reaches id ∧ compactDepth t id = depth := by
  rw [← Traversal.mem_preorder_iff]
  simp only [longestPath, List.mem_map, List.mem_reverse, Prod.mk.injEq]
  constructor
  · rintro ⟨_, hmem, rfl, hdepth⟩
    exact ⟨hmem, hdepth⟩
  · rintro ⟨hmem, hdepth⟩
    exact ⟨id, hmem, rfl, hdepth⟩

theorem start_mem_of_mem_trails {path : List String} (h : (id, path) ∈ trails t) :
    t.start ∈ id :: path := by
  induction path generalizing id with
  | nil =>
      have hstart : id = t.start := (grounded_trails t).endsAt _ h
      rw [hstart]
      exact List.mem_singleton_self _
  | cons parent path ih =>
      exact List.mem_cons_of_mem _ (ih ((grounded_trails t).endsAt _ h).1)

theorem path_eq_nil_of_start {path : List String} (h : (t.start, path) ∈ trails t) : path = [] := by
  cases path with
  | nil => rfl
  | cons parent path =>
      have hmem := start_mem_of_mem_trails ((grounded_trails t).endsAt _ h).1
      exact absurd hmem (List.nodup_cons.1 ((grounded_trails t).path_nodup _ h)).1

theorem compactDepth_start (t : Tree) : compactDepth t t.start = 0 := by
  by_contra hne
  obtain ⟨parent, hparent, hon, -⟩ := exists_leadsOn_of_compactDepth_ne_zero hne
  obtain ⟨path, hpath⟩ := exists_mem_trails_iff.2 hparent
  exact ((Tree.leadsOn_iff hpath).1 hon).2 (start_mem_of_mem_trails hpath)

theorem depth_eq_zero_iff (h : (id, depth) ∈ order t mode) : depth = 0 ↔ id = t.start := by
  cases mode with
  | firstDiscovery =>
      obtain ⟨path, hpath, rfl⟩ := mem_firstDiscovery_iff.1 h
      constructor
      · intro hlength
        rw [List.length_eq_zero_iff.1 hlength] at hpath
        exact (grounded_trails t).endsAt _ hpath
      · rintro rfl
        rw [path_eq_nil_of_start hpath, List.length_nil]
  | compact =>
      obtain ⟨hreaches, rfl⟩ := mem_longestPath_depth_iff.1 h
      constructor
      · exact eq_start_of_compactDepth_eq_zero hreaches
      · rintro rfl
        exact compactDepth_start t

/-- Above a node that is not at the top there is one that leads to it. -/
theorem exists_above (h : (id, depth + 1) ∈ order t mode) :
    ∃ above, (above, depth) ∈ order t mode ∧ id ∈ t.children above := by
  cases mode with
  | firstDiscovery =>
      obtain ⟨path, hpath, hlength⟩ := mem_firstDiscovery_iff.1 h
      cases path with
      | nil => cases hlength
      | cons above path =>
          obtain ⟨habove, hchild⟩ := (grounded_trails t).endsAt _ hpath
          exact ⟨above, mem_firstDiscovery_iff.2 ⟨path, habove, Nat.succ.inj hlength⟩, hchild⟩
  | compact =>
      obtain ⟨-, hdepth⟩ := mem_longestPath_depth_iff.1 h
      have hne : compactDepth t id ≠ 0 := by omega
      obtain ⟨above, habove, hon, heq⟩ := exists_leadsOn_of_compactDepth_ne_zero hne
      have haboveDepth : compactDepth t above = depth := by omega
      exact ⟨above, mem_longestPath_depth_iff.2 ⟨habove, haboveDepth⟩, hon.1⟩

theorem mem_depths_of_le {d : Nat} (h : (id, depth) ∈ order t mode) (hle : d ≤ depth) :
    d ∈ (order t mode).map (·.2) := by
  induction depth generalizing id with
  | zero =>
      obtain rfl : d = 0 := Nat.le_zero.1 hle
      exact List.mem_map_of_mem (f := (·.2)) h
  | succ depth ih =>
      rcases Nat.lt_or_eq_of_le hle with hlt | rfl
      · obtain ⟨above, habove, -⟩ := exists_above h
        exact ih habove (Nat.le_of_lt_succ hlt)
      · exact List.mem_map_of_mem (f := (·.2)) h

/-- There are more nodes than levels above any of them. -/
theorem depth_lt_length_order (h : (id, depth) ∈ order t mode) : depth < (order t mode).length := by
  have hsubset : List.range (depth + 1) ⊆ (order t mode).map (·.2) := by
    intro d hd
    exact mem_depths_of_le h (Nat.le_of_lt_succ (List.mem_range.1 hd))
  have hlength := List.nodup_range.length_le_of_subset hsubset
  rw [List.length_range, List.length_map] at hlength
  exact hlength

/-! ## What is placed -/

section Placed

variable {α : Type} [Coordinate α]

theorem entries_of (t : Tree) (settings : Config α) (mode : Mode) :
    (Layout.of t settings mode).nodes.map (fun card => (card.id, card.depth)) =
      (order t mode).mergeSort fun a b => a.2 ≤ b.2 :=
  entries_placedNodes t settings (order t mode)

theorem nodup_ids_of (t : Tree) (settings : Config α) (mode : Mode) :
    ((Layout.of t settings mode).nodes.map (·.id)).Nodup := by
  have hids : (Layout.of t settings mode).nodes.map (·.id) =
      ((order t mode).mergeSort fun a b => a.2 ≤ b.2).map (·.1) := by
    rw [← entries_of t settings, List.map_map]
    rfl
  have hperm := (List.mergeSort_perm (order t mode) fun a b => a.2 ≤ b.2).map (·.1)
  rw [hids, hperm.nodup_iff, ids_order]
  exact nodup_reachableIds t

theorem length_nodes_of (t : Tree) (settings : Config α) (mode : Mode) :
    (Layout.of t settings mode).nodes.length = (order t mode).length := by
  have hlength := congrArg List.length (entries_of t settings mode)
  rwa [List.length_map, List.length_mergeSort] at hlength

theorem exists_card_iff (settings : Config α) :
    (∃ card ∈ (Layout.of t settings mode).nodes, card.id = id ∧ card.depth = depth) ↔
      (id, depth) ∈ order t mode := by
  have hperm := List.mergeSort_perm (order t mode) fun a b => a.2 ≤ b.2
  rw [← hperm.mem_iff, ← entries_of t settings, List.mem_map]
  simp only [Prod.mk.injEq]

theorem contains_of_iff {settings : Config α} :
    (Layout.of t settings mode).contains id = true ↔ t.Reaches id := by
  have hplaced : (∃ card ∈ (Layout.of t settings mode).nodes, card.id = id) ↔ t.Reaches id :=
    exists_mem_nodes_iff
  rw [contains, node?, List.find?_isSome, ← hplaced]
  simp only [decide_eq_true_eq]

/-- Every stored node is placed once or left out. -/
theorem length_skipped_add (t : Tree) (settings : Config α) (mode : Mode) :
    (t.nodes.keys.filter fun id => !(Layout.of t settings mode).contains id).length +
      (Layout.of t settings mode).nodes.length = t.nodes.size := by
  have hperm : ((Layout.of t settings mode).nodes.map (·.id)).Perm
      (t.nodes.keys.filter fun id => (Layout.of t settings mode).contains id) := by
    refine (List.perm_ext_iff_of_nodup (nodup_ids_of t settings mode)
      (t.nodes.nodup.filter _)).2 fun id => ?_
    rw [List.mem_filter, contains_of_iff, mem_ids_of_iff, iff_and_self]
    exact Tree.Reaches.mem_keys
  have hlength := hperm.length_eq
  have hsplit := List.length_eq_length_filter_add (l := t.nodes.keys)
    fun id => (Layout.of t settings mode).contains id
  have hkeys : t.nodes.keys.length = t.nodes.size := List.length_map _
  rw [List.length_map] at hlength
  omega

/-- A layout places what can be reached and nothing else, each node once, in the order of the
depth-first visit sorted by depth. -/
structure Levelled (t : Tree) (mode : Mode) (l : Layout α) : Prop where
  nodup : (l.nodes.map (·.id)).Nodup
  stored : ∀ card ∈ l.nodes, card.id ∈ t.nodes.keys
  mem_iff : ∀ id, id ∈ l.nodes.map (·.id) ↔ t.Reaches id
  mem_reachableIds : ∀ id, id ∈ l.nodes.map (·.id) ↔ id ∈ reachableIds t
  /-- The nodes that are left out are as many as the difference says. -/
  skipped : (t.nodes.keys.filter fun id => !l.contains id).length + l.nodes.length = t.nodes.size
  /-- Both modes take the nodes in the order of the visit by recursion. -/
  preorder : (order t mode).map (·.1) = (visitTree t Discovery.deeper 0).reverse.map (·.1)
  /-- Merge sort is stable, so the nodes of a level keep their order (`filter_mergeSort`). -/
  sorted : l.nodes.map (fun card => (card.id, card.depth)) =
    (order t mode).mergeSort fun a b => a.2 ≤ b.2
  start_iff : ∀ card ∈ l.nodes, card.depth = 0 ↔ card.id = t.start
  above : ∀ card ∈ l.nodes, card.depth ≠ 0 →
    ∃ above ∈ l.nodes, above.depth + 1 = card.depth ∧ card.id ∈ t.children above.id
  depth_lt : ∀ card ∈ l.nodes, card.depth < l.nodes.length

/-- Placing loses no node and makes none up, and leaves no level empty. -/
theorem levelled_of (t : Tree) (settings : Config α) (mode : Mode) :
    Levelled t mode (Layout.of t settings mode) where
  nodup := nodup_ids_of t settings mode
  stored := fun card hcard => (mem_ids_of_iff.1 (List.mem_map_of_mem hcard)).mem_keys
  mem_iff := fun id => mem_ids_of_iff
  mem_reachableIds := by
    intro id
    rw [mem_ids_of_iff, mem_reachableIds_iff]
  skipped := length_skipped_add t settings mode
  preorder := by
    rw [ids_order, ← Discovery.reached_finish]
    rfl
  sorted := entries_of t settings mode
  start_iff := by
    intro card hcard
    have horder : (card.id, card.depth) ∈ order t mode := mem_order_of_mem_placedNodes hcard
    exact depth_eq_zero_iff horder
  above := by
    intro card hcard hne
    obtain ⟨depth, hdepth⟩ := Nat.exists_eq_succ_of_ne_zero hne
    have horder : (card.id, card.depth) ∈ order t mode := mem_order_of_mem_placedNodes hcard
    rw [hdepth] at horder
    obtain ⟨above, habove, hchild⟩ := exists_above horder
    obtain ⟨aboveCard, hmem, rfl, rfl⟩ := (exists_card_iff settings).2 habove
    exact ⟨aboveCard, hmem, hdepth.symm, hchild⟩
  depth_lt := by
    intro card hcard
    have horder : (card.id, card.depth) ∈ order t mode := mem_order_of_mem_placedNodes hcard
    rw [length_nodes_of]
    exact depth_lt_length_order horder

end Placed

end Layout

end Dialogue
