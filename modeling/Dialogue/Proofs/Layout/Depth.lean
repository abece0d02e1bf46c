import Dialogue.Proofs.Layout.ForwardEdge
import Dialogue.Proofs.Layout.Placement
/-!
# Levels of the compact layout

The edges that do not lead back have no cycle, and a node's level in the compact layout is the
length of the longest path along them.  Nodes are taken in an order in which these edges lead onward
only: once a node has been taken, its level is final (`Relaxed`).
-/

namespace Dialogue

namespace Layout

/-! ## Relaxing edges in order -/

theorem depthOf_relaxEdge (depths : SortedMap Nat) (edge : String × String) (id : String) :
    depthOf (relaxEdge depths edge) id =
      if id = edge.2 then max (depthOf depths id) (depthOf depths edge.1 + 1)
      else depthOf depths id := by
  rw [depthOf, relaxEdge, SortedMap.get?_insert]
  split
  next heq => rw [heq, Option.getD_some]
  next => rfl

theorem depthOf_foldl_relaxEdge {source : String} {edges : List (String × String)}
    (hsource : ∀ edge ∈ edges, edge.1 = source) (hself : (source, source) ∉ edges)
    (depths : SortedMap Nat) (id : String) :
    depthOf (edges.foldl relaxEdge depths) id =
      if (source, id) ∈ edges then max (depthOf depths id) (depthOf depths source + 1)
      else depthOf depths id := by
  induction edges generalizing depths with
  | nil => rfl
  | cons edge edges ih =>
      obtain ⟨first, target⟩ := edge
      obtain rfl : first = source := hsource _ List.mem_cons_self
      obtain ⟨hne, hself⟩ := not_or.1 (mt List.mem_cons.2 hself)
      have hkeep : depthOf (relaxEdge depths (first, target)) first = depthOf depths first := by
        rw [depthOf_relaxEdge, if_neg fun heq => hne (Prod.ext rfl heq)]
      rw [List.foldl_cons, ih (fun edge hedge => hsource edge (List.mem_cons_of_mem _ hedge)) hself,
        hkeep, depthOf_relaxEdge]
      simp only [List.mem_cons, Prod.mk.injEq, true_and]
      split <;> split <;> simp_all

theorem depthOf_relaxNode {edges : List (String × String)} {source : String}
    (hself : (source, source) ∉ edges) (depths : SortedMap Nat) (id : String) :
    depthOf (relaxNode edges depths source) id =
      if (source, id) ∈ edges then max (depthOf depths id) (depthOf depths source + 1)
      else depthOf depths id := by
  have hout : ∀ target, (source, target) ∈ edges.filter (fun edge => edge.1 = source) ↔
      (source, target) ∈ edges := by simp
  have hsource : ∀ edge ∈ edges.filter (fun edge => edge.1 = source), edge.1 = source :=
    fun edge hedge => of_decide_eq_true (List.mem_filter.1 hedge).2
  rw [relaxNode, depthOf_foldl_relaxEdge hsource (mt (hout source).1 hself)]
  simp only [hout]

/-- The levels after some nodes have been taken: all that their edges lead to is above them, and
only because of such an edge a node stands where it stands. -/
structure Relaxed (edges : List (String × String)) (taken : List String)
    (depths : SortedMap Nat) : Prop where
  below : ∀ source ∈ taken, ∀ target, (source, target) ∈ edges →
    depthOf depths source < depthOf depths target
  reason : ∀ target, depthOf depths target ≠ 0 → ∃ source ∈ taken, (source, target) ∈ edges ∧
    depthOf depths target = depthOf depths source + 1

section Relaxing

variable {edges : List (String × String)} {taken : List String} {depths : SortedMap Nat}

/-- The nodes that have been taken keep their level, and so does the next one. -/
theorem depthOf_relaxNode_taken {next source : String} (hself : (next, next) ∉ edges)
    (hnext : ∀ source ∈ taken, (next, source) ∉ edges) (hsource : source ∈ taken ++ [next]) :
    depthOf (relaxNode edges depths next) source = depthOf depths source := by
  have hnot : (next, source) ∉ edges := by
    rcases List.mem_append.1 hsource with hmem | hmem
    · exact hnext source hmem
    · rw [List.mem_singleton.1 hmem]
      exact hself
  rw [depthOf_relaxNode hself, if_neg hnot]

theorem relaxed_relaxNode {next : String} (h : Relaxed edges taken depths)
    (hself : (next, next) ∉ edges) (hnext : ∀ source ∈ taken, (next, source) ∉ edges) :
    Relaxed edges (taken ++ [next]) (relaxNode edges depths next) := by
  have hdepth := depthOf_relaxNode hself depths
  refine ⟨fun source hsource target hedge => ?_, fun target hne => ?_⟩
  · rw [depthOf_relaxNode_taken hself hnext hsource, hdepth]
    rcases List.mem_append.1 hsource with hmem | hmem
    · have hbelow := h.below source hmem target hedge
      split <;> omega
    · obtain rfl := List.mem_singleton.1 hmem
      rw [if_pos hedge]
      omega
  · by_cases hraised : (next, target) ∈ edges ∧ depthOf depths target ≤ depthOf depths next
    · have hlast : next ∈ taken ++ [next] := List.mem_append_right _ (List.mem_singleton_self next)
      refine ⟨next, hlast, hraised.1, ?_⟩
      rw [depthOf_relaxNode_taken hself hnext hlast, hdepth, if_pos hraised.1]
      omega
    · -- the target stands where it stood, for the reason that it had
      have hsame : depthOf (relaxNode edges depths next) target = depthOf depths target := by
        rw [hdepth]
        split
        next hedge =>
          have hbelow : ¬ depthOf depths target ≤ depthOf depths next :=
            fun hle => hraised ⟨hedge, hle⟩
          omega
        next => rfl
      rw [hsame] at hne ⊢
      obtain ⟨source, hsource, hedge, heq⟩ := h.reason target hne
      have htaken : source ∈ taken ++ [next] := List.mem_append_left _ hsource
      refine ⟨source, htaken, hedge, ?_⟩
      rw [depthOf_relaxNode_taken hself hnext htaken]
      exact heq

theorem relaxed_foldl {nodes : List String} (hself : ∀ id, (id, id) ∉ edges)
    (hordered : nodes.Pairwise fun later earlier => (earlier, later) ∉ edges) :
    Relaxed edges nodes (nodes.foldl (relaxNode edges) .empty) := by
  induction nodes using List.reverseRecOn with
  | nil => exact ⟨by simp, fun target hne => absurd rfl hne⟩
  | append_singleton nodes next ih =>
      obtain ⟨hnodes, -, hnext⟩ := List.pairwise_append.1 hordered
      rw [List.foldl_append]
      exact relaxed_relaxNode (ih hnodes) (hself next)
        fun source hsource => hnext source hsource next (List.mem_singleton_self next)

end Relaxing

/-! ## Levels of nodes -/

variable {t : Tree} {id child : String}

def compactDepth (t : Tree) (id : String) : Nat := depthOf (relaxed (Traversal.finish t)) id

theorem relaxed_finish (t : Tree) :
    Relaxed (Traversal.finish t).forward.reverse (Traversal.finish t).finished
      (relaxed (Traversal.finish t)) := by
  refine relaxed_foldl (fun id hself => ?_) ?_
  · obtain ⟨hreaches, hon⟩ := Traversal.mem_forward_iff.1 (List.mem_reverse.1 hself)
    exact hon.ne hreaches rfl
  · refine (Traversal.marked_ordered_finish t).2.pairwise.imp fun hnot hedge => ?_
    exact hnot (List.mem_reverse.1 hedge)

theorem compactDepth_lt (hreaches : t.Reaches id) (hon : t.LeadsOn id child) :
    compactDepth t id < compactDepth t child :=
  (relaxed_finish t).below id (Traversal.mem_finished_iff.2 hreaches) child
    (List.mem_reverse.2 (Traversal.mem_forward_iff.2 ⟨hreaches, hon⟩))

theorem exists_leadsOn_of_compactDepth_ne_zero (h : compactDepth t child ≠ 0) :
    ∃ id, t.Reaches id ∧ t.LeadsOn id child ∧ compactDepth t child = compactDepth t id + 1 := by
  obtain ⟨id, -, hedge, heq⟩ := (relaxed_finish t).reason child h
  obtain ⟨hreaches, hon⟩ := Traversal.mem_forward_iff.1 (List.mem_reverse.1 hedge)
  exact ⟨id, hreaches, hon, heq⟩

theorem compactDepth_lt_of_transGen (hreaches : t.Reaches id)
    (h : Relation.TransGen t.LeadsOn id child) : compactDepth t id < compactDepth t child := by
  induction h using Relation.TransGen.head_induction_on with
  | single hon => exact compactDepth_lt hreaches hon
  | head hon _ ih => exact (compactDepth_lt hreaches hon).trans (ih (hreaches.child hon.1))

theorem reaches_of_pathTo_leadsOn {n : Nat} (hplayable : t.isPlayable = true)
    (h : t.PathTo t.LeadsOn n id) : t.Reaches id :=
  .of_pathTo hplayable (h.imp fun _ _ hon => hon.1)

theorem le_compactDepth {n : Nat} (hplayable : t.isPlayable = true)
    (h : t.PathTo t.LeadsOn n id) : n ≤ compactDepth t id := by
  induction h with
  | start => exact Nat.zero_le _
  | step hpath hon ih =>
      exact ih.trans_lt (compactDepth_lt (reaches_of_pathTo_leadsOn hplayable hpath) hon)

/-- Every node but the start stands below one that leads on to it. -/
theorem eq_start_of_compactDepth_eq_zero (hreaches : t.Reaches id) (h : compactDepth t id = 0) :
    id = t.start := by
  obtain ⟨path, hpath⟩ := exists_mem_trails_iff.2 hreaches
  cases path with
  | nil => exact (grounded_trails t).endsAt _ hpath
  | cons parent path =>
      have hparent : t.Reaches parent :=
        exists_mem_trails_iff.1 ⟨path, ((grounded_trails t).endsAt _ hpath).1⟩
      have hlt := compactDepth_lt hparent (Tree.leadsOn_of_mem_trails hpath)
      omega

theorem pathTo_compactDepth (hreaches : t.Reaches id) :
    t.PathTo t.LeadsOn (compactDepth t id) id := by
  induction hdepth : compactDepth t id generalizing id with
  | zero => exact eq_start_of_compactDepth_eq_zero hreaches hdepth ▸ .start
  | succ n ih =>
      have hne : compactDepth t id ≠ 0 := by omega
      obtain ⟨parent, hparent, hon, heq⟩ := exists_leadsOn_of_compactDepth_ne_zero hne
      have hparentDepth : compactDepth t parent = n := by omega
      exact .step (ih hparent hparentDepth) hon

theorem isGreatest_compactDepth (hreaches : t.Reaches id) :
    IsGreatest {n | t.PathTo t.LeadsOn n id} (compactDepth t id) :=
  ⟨pathTo_compactDepth hreaches, fun _ hpath => le_compactDepth hreaches.1 hpath⟩

/-- The walk with a stack finds a node at the end of some path, hence never below its compact
level. -/
theorem le_compactDepth_of_mem_firstDiscovery {depth : Nat} (h : (id, depth) ∈ firstDiscovery t) :
    depth ≤ compactDepth t id := by
  rw [firstDiscovery_eq_trails, List.mem_reverse, List.mem_map] at h
  obtain ⟨⟨_, path⟩, hpath, heq⟩ := h
  cases heq
  have hreaches := exists_mem_trails_iff.1 ⟨path, hpath⟩
  exact le_compactDepth hreaches.1 (Tree.pathTo_of_mem_trails hpath)

/-- Where no cycle can be reached, no edge leads back. -/
theorem leadsOn_of_leads (hcycle : ∀ id, t.Reaches id → ¬ Relation.TransGen t.Leads id id)
    (hreaches : t.Reaches id) (h : t.Leads id child) : t.LeadsOn id child :=
  ⟨h, fun hback => hcycle id hreaches hback.cycle⟩

theorem pathTo_leadsOn_iff (hcycle : ∀ id, t.Reaches id → ¬ Relation.TransGen t.Leads id id)
    (hplayable : t.isPlayable = true) {n : Nat} :
    t.PathTo t.LeadsOn n id ↔ t.PathTo t.Leads n id := by
  refine ⟨fun h => h.imp fun _ _ hon => hon.1, fun h => ?_⟩
  induction h with
  | start => exact .start
  | step hpath hchild ih =>
      exact .step ih (leadsOn_of_leads hcycle (.of_pathTo hplayable hpath) hchild)

/-! ## Placed levels -/

section Placed

variable {α : Type} [Coordinate α] {settings : Config α} {card : Card α}

theorem depth_of_mem_compact (h : card ∈ (Layout.of t settings .compact).nodes) :
    t.Reaches card.id ∧ card.depth = compactDepth t card.id := by
  refine ⟨mem_ids_of_iff.1 (List.mem_map_of_mem h), ?_⟩
  have horder : (card.id, card.depth) ∈ longestPath t := mem_order_of_mem_placedNodes h
  obtain ⟨id, -, heq⟩ := List.mem_map.1 horder
  obtain ⟨rfl, hdepth⟩ := Prod.mk.inj heq
  exact hdepth.symm

theorem exists_mem_nodes_iff {mode : Mode} :
    (∃ card ∈ (Layout.of t settings mode).nodes, card.id = id) ↔ t.Reaches id := by
  have hplaced : id ∈ (Layout.of t settings mode).nodes.map (·.id) ↔ t.Reaches id := mem_ids_of_iff
  rw [← hplaced, List.mem_map]

/-- The edges between placed nodes that do not lead back have no cycle, and the compact layout
places each node at the length of the longest path along them from the start to it.  So if no cycle
can be reached, the level is the length of the longest path of all, and every edge leads to a deeper
level.  No node is placed above the level at which the walk with a stack places it. -/
theorem compact_depth_longest (t : Tree) (settings : Config α) :
    (∀ id, t.Reaches id → ¬ Relation.TransGen t.LeadsOn id id) ∧
      (∀ card ∈ (Layout.of t settings .compact).nodes,
        IsGreatest {n | t.PathTo t.LeadsOn n card.id} card.depth) ∧
      ((∀ id, t.Reaches id → ¬ Relation.TransGen t.Leads id id) →
        ∀ card ∈ (Layout.of t settings .compact).nodes,
          IsGreatest {n | t.PathTo t.Leads n card.id} card.depth ∧
            ∀ child ∈ t.children card.id,
              (∃ below ∈ (Layout.of t settings .compact).nodes, below.id = child) ∧
                ∀ below ∈ (Layout.of t settings .compact).nodes,
                  below.id = child → card.depth < below.depth) ∧
      ∀ card ∈ (Layout.of t settings .compact).nodes,
        (∃ first ∈ (Layout.of t settings .firstDiscovery).nodes, first.id = card.id) ∧
          ∀ first ∈ (Layout.of t settings .firstDiscovery).nodes,
            first.id = card.id → first.depth ≤ card.depth := by
  refine ⟨fun id hreaches hcycle => ?_, fun card hcard => ?_, fun hcycle card hcard => ?_,
    fun card hcard => ?_⟩
  · exact Nat.lt_irrefl _ (compactDepth_lt_of_transGen hreaches hcycle)
  · obtain ⟨hreaches, hdepth⟩ := depth_of_mem_compact hcard
    rw [hdepth]
    exact isGreatest_compactDepth hreaches
  · obtain ⟨hreaches, hdepth⟩ := depth_of_mem_compact hcard
    rw [hdepth]
    constructor
    · simp only [← pathTo_leadsOn_iff hcycle hreaches.1]
      exact isGreatest_compactDepth hreaches
    · intro child hchild
      refine ⟨exists_mem_nodes_iff.2 (hreaches.child hchild), fun below hbelow heq => ?_⟩
      rw [(depth_of_mem_compact hbelow).2, heq]
      exact compactDepth_lt hreaches (leadsOn_of_leads hcycle hreaches hchild)
  · obtain ⟨hreaches, hdepth⟩ := depth_of_mem_compact hcard
    refine ⟨exists_mem_nodes_iff.2 hreaches, fun first hfirst heq => ?_⟩
    have horder : (first.id, first.depth) ∈ firstDiscovery t :=
      mem_order_of_mem_placedNodes hfirst
    rw [hdepth, ← heq]
    exact le_compactDepth_of_mem_firstDiscovery horder

end Placed

/-- The way from the yard back to the gate counts for nothing, the way round by the tower counts. -/
example :
    let ring : Tree := (Tree.bare "ring" "gate").withNode
        ((Node.line "gate" "Guard" "Halt!").withChoice (Choice.leading "in" "Go in." "yard")
          |>.withChoice (Choice.leading "up" "Climb." "tower"))
      |>.withNode
        ((Node.line "yard" "Guard" "Again?").withChoice (Choice.leading "out" "Go out." "gate"))
      |>.withNode
        ((Node.line "tower" "Crow" "Caw.").withChoice (Choice.leading "jump" "Jump." "yard"))
    firstDiscovery ring = [("gate", 0), ("yard", 1), ("tower", 1)] ∧
      longestPath ring = [("gate", 0), ("yard", 2), ("tower", 1)] := by
  decide +kernel

end Layout

end Dialogue
