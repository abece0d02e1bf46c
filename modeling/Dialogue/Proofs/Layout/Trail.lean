import Dialogue.Proofs.Layout.Placement
import Dialogue.Proofs.Layout.Visit
/-!
# Both walks follow the recursive visit

`trails` is the recursive visit that notes for each node the path on which it is visited.  The walk
along paths stands, between two of its steps, in the middle of that visit: `Follows` says what it has
recorded and that going on from its open path gives the rest.  Its order is therefore the order of
the walk with a stack, which is the recursive visit with depths in place of paths.
-/

namespace Dialogue.Layout

variable {t : Tree}

/-- All nodes that are visited from the start, each with the nodes on the way to it, the nearest one
first.  While a node's children are looked at, the way to it and the node itself are the current
path.  The node that is visited last comes first. -/
def trails (t : Tree) : List (String × List String) := visitTree t List.cons []

/-! ## Paths of the visit -/

def EndsAt (t : Tree) (reached : List (String × List String)) : List String → String → Prop
  | [], id => id = t.start
  | parent :: path, id => (parent, path) ∈ reached ∧ id ∈ t.children parent

/-- All nodes that have been reached are noted with a path that ends at them and passes no node
twice. -/
structure Grounded (t : Tree) (reached : List (String × List String)) : Prop where
  ids_nodup : (reached.map (·.1)).Nodup
  endsAt : ∀ entry ∈ reached, EndsAt t reached entry.2 entry.1
  path_nodup : ∀ entry ∈ reached, (entry.1 :: entry.2).Nodup

theorem EndsAt.mono {reached later : List (String × List String)} (h : reached <:+ later)
    {path : List String} {id : String} (hends : EndsAt t reached path id) :
    EndsAt t later path id := by
  cases path with
  | nil => exact hends
  | cons parent path => exact ⟨h.subset hends.1, hends.2⟩

theorem Grounded.mem_of_mem_path {reached : List (String × List String)} (h : Grounded t reached)
    {path : List String} {id other : String} (hends : EndsAt t reached path id)
    (hother : other ∈ path) : other ∈ reached.map (·.1) := by
  induction path generalizing id with
  | nil => exact absurd hother List.not_mem_nil
  | cons parent path ih =>
      rcases List.mem_cons.1 hother with rfl | hmem
      · exact List.mem_map_of_mem (f := (·.1)) hends.1
      · exact ih (h.endsAt _ hends.1) hmem

theorem Grounded.nodup_of_endsAt {reached : List (String × List String)} (h : Grounded t reached)
    {path : List String} {id : String} (hends : EndsAt t reached path id) : path.Nodup := by
  cases path with
  | nil => exact List.nodup_nil
  | cons parent path => exact h.path_nodup _ hends.1

theorem Grounded.cons {reached : List (String × List String)} (h : Grounded t reached)
    {path : List String} {id : String} (hends : EndsAt t reached path id)
    (hnew : id ∉ reached.map (·.1)) : Grounded t ((id, path) :: reached) where
  ids_nodup := List.nodup_cons.2 ⟨hnew, h.ids_nodup⟩
  endsAt := by
    intro entry hentry
    refine EndsAt.mono (List.suffix_cons _ _) ?_
    rcases List.mem_cons.1 hentry with rfl | hmem
    · exact hends
    · exact h.endsAt entry hmem
  path_nodup := by
    intro entry hentry
    rcases List.mem_cons.1 hentry with rfl | hmem
    · exact List.nodup_cons.2
        ⟨fun hid => hnew (h.mem_of_mem_path hends hid), h.nodup_of_endsAt hends⟩
    · exact h.path_nodup entry hmem

theorem grounded_visitAll {path ids : List String} {reached : List (String × List String)}
    (h : Grounded t reached) (hids : ∀ id ∈ ids, EndsAt t reached path id) :
    Grounded t (visitAll t List.cons path ids reached) := by
  refine visitAll_induction (motive := fun path ids reached later =>
    Grounded t reached → (∀ id ∈ ids, EndsAt t reached path id) → Grounded t later)
    (fun _ _ h _ => h) ?_ ?_ path ids reached h hids
  · intro path id rest reached later _ ih h hids
    exact ih h fun other hother => hids other (List.mem_cons_of_mem _ hother)
  · intro path id rest reached below later hnew hbelow ihbelow ihlater h hids
    have hcons := h.cons (hids id List.mem_cons_self) hnew
    refine ihlater (ihbelow hcons fun child hchild => ⟨List.mem_cons_self, hchild⟩) ?_
    intro other hother
    have hends := hids other (List.mem_cons_of_mem _ hother)
    exact hends.mono ((List.suffix_cons _ _).trans hbelow)

theorem grounded_trails (t : Tree) : Grounded t (trails t) := by
  have hempty : Grounded t [] := ⟨List.nodup_nil, by simp, by simp⟩
  unfold trails visitTree
  split
  · exact grounded_visitAll hempty fun id hid => List.mem_singleton.1 hid
  · exact hempty

theorem firstDiscovery_eq_trails (t : Tree) :
    firstDiscovery t = ((trails t).map (Prod.map id List.length)).reverse := by
  have hlength : ∀ id path, (List.cons id path).length = Discovery.deeper id path.length :=
    fun _ _ => rfl
  have hdepths : (trails t).map (Prod.map id List.length) = visitTree t Discovery.deeper 0 :=
    map_visitTree hlength []
  rw [firstDiscovery, Discovery.reached_finish, hdepths]

theorem reachableIds_eq_trails (t : Tree) : reachableIds t = ((trails t).map (·.1)).reverse := by
  rw [reachableIds, firstDiscovery_eq_trails, List.map_reverse, List.map_map]
  rfl

theorem exists_mem_trails_iff {id : String} : (∃ path, (id, path) ∈ trails t) ↔ t.Reaches id := by
  rw [← mem_reachableIds_iff, reachableIds_eq_trails, List.mem_reverse, List.mem_map]
  constructor
  · rintro ⟨path, h⟩
    exact ⟨_, h, rfl⟩
  · rintro ⟨⟨_, path⟩, h, rfl⟩
    exact ⟨path, h⟩

/-! ## The walk along paths -/

namespace Traversal

/-- What the visit reaches if it goes on from an open path: first the children that are left at its
last node, then those at the node before, and so on. -/
def goOn (t : Tree) : List (String × List String) → List (String × List String) →
    List (String × List String)
  | [], reached => reached
  | (id, more) :: path, reached =>
    goOn t path (visitAll t List.cons (id :: path.map (·.1)) more reached)

/-- The walk stands in the middle of the recursive visit: so much has been recorded, and going on
from the path gives all. -/
structure Follows (t : Tree) (w : Traversal) (reached : List (String × List String)) : Prop where
  ids_eq : reached.map (·.1) = w.preorder
  goOn_eq : goOn t w.path reached = trails t
  path_mem : ∀ id more path, (id, more) :: path <:+ w.path → (id, path.map (·.1)) ∈ reached

theorem follows_start (t : Tree) : ∃ reached, Follows t (start t) reached := by
  unfold start
  cases hplayable : t.isPlayable with
  | true =>
      refine ⟨[(t.start, [])], rfl, ?_, ?_⟩
      · rw [trails, visitTree, if_pos hplayable, visit, visitAll_cons_of_notMem List.not_mem_nil,
          visitAll_nil]
        rfl
      · intro id more path hpath
        rw [if_pos rfl, List.suffix_cons_iff, List.suffix_nil] at hpath
        rcases hpath with heq | hnil
        · cases heq
          exact List.mem_singleton_self _
        · cases hnil
  | false =>
      refine ⟨[], rfl, ?_, ?_⟩
      · rw [trails, visitTree, hplayable]
        rfl
      · intro id more path hpath
        have hnil := List.suffix_nil.1 hpath
        cases hnil

section Step

variable {w w' : Traversal} {reached : List (String × List String)} {id child : String}
  {more : List String} {path : List (String × List String)}

theorem Follows.top_mem {rest : List String} (h : Follows t w reached)
    (hpath : w.path = (id, rest) :: path) : (id, path.map (·.1)) ∈ reached := by
  apply h.path_mem id rest path
  rw [hpath]

theorem suffix_goOn (t : Tree) (path reached : List (String × List String)) :
    reached <:+ goOn t path reached := by
  induction path generalizing reached with
  | nil => exact List.suffix_rfl
  | cons entry path ih => exact (suffix_visitAll _ _ _).trans (ih _)

theorem Follows.top_mem_trails {rest : List String} (h : Follows t w reached)
    (hpath : w.path = (id, rest) :: path) : (id, path.map (·.1)) ∈ trails t := by
  rw [← h.goOn_eq]
  exact (suffix_goOn t w.path reached).subset (h.top_mem hpath)

theorem follows_leave (h : Follows t w reached) (hpath : w.path = (id, []) :: path)
    (hpath' : w'.path = path) (hpreorder : w'.preorder = w.preorder) : Follows t w' reached where
  ids_eq := hpreorder ▸ h.ids_eq
  goOn_eq := by
    rw [← h.goOn_eq, hpath, hpath', goOn, visitAll_nil]
  path_mem := by
    intro other rest below hbelow
    refine h.path_mem other rest below ?_
    rw [hpath]
    exact (hpath' ▸ hbelow).trans (List.suffix_cons _ _)

theorem follows_descend (h : Follows t w reached) (hpath : w.path = (id, child :: more) :: path)
    (hnew : child ∉ w.preorder)
    (hpath' : w'.path = (child, t.children child) :: (id, more) :: path)
    (hpreorder : w'.preorder = child :: w.preorder) :
    Follows t w' ((child, id :: path.map (·.1)) :: reached) where
  ids_eq := by rw [hpreorder, ← h.ids_eq, List.map_cons]
  goOn_eq := by
    rw [← h.ids_eq] at hnew
    rw [← h.goOn_eq, hpath, hpath', goOn, goOn, goOn, visitAll_cons_of_notMem hnew, List.map_cons]
  path_mem := by
    intro other rest below hbelow
    rw [hpath', List.suffix_cons_iff, List.suffix_cons_iff] at hbelow
    rcases hbelow with heq | heq | hrest
    · cases heq
      exact List.mem_cons_self
    · cases heq
      exact List.mem_cons_of_mem _ (h.top_mem hpath)
    · refine List.mem_cons_of_mem _ (h.path_mem other rest below ?_)
      rw [hpath]
      exact hrest.trans (List.suffix_cons _ _)

theorem follows_pass (h : Follows t w reached) (hpath : w.path = (id, child :: more) :: path)
    (hknown : child ∈ w.preorder) (hpath' : w'.path = (id, more) :: path)
    (hpreorder : w'.preorder = w.preorder) : Follows t w' reached where
  ids_eq := hpreorder ▸ h.ids_eq
  goOn_eq := by
    rw [← h.ids_eq] at hknown
    rw [← h.goOn_eq, hpath, hpath', goOn, goOn, visitAll_cons_of_mem hknown]
  path_mem := by
    intro other rest below hbelow
    rw [hpath', List.suffix_cons_iff] at hbelow
    rcases hbelow with heq | hrest
    · cases heq
      exact h.top_mem hpath
    · refine h.path_mem other rest below ?_
      rw [hpath]
      exact hrest.trans (List.suffix_cons _ _)

theorem follows_step (hsound : Sound t w) (h : Follows t w reached) (hstep : step t w = some w') :
    ∃ reached', Follows t w' reached' := by
  cases moved_of_step hstep with
  | leave hpath => exact ⟨_, follows_leave h hpath rfl rfl⟩
  | @descend id child more path hpath hmark =>
      have hnew : child ∉ w.preorder := by
        rw [← hsound.met_iff, hasMet, hmark]
        simp [Mark.isMet]
      exact ⟨_, follows_descend h hpath hnew rfl rfl⟩
  | skip hpath hmark =>
      exact ⟨_, follows_pass h hpath ((hsound.met_iff _).1 (hasMet_of_mark hmark rfl)) rfl rfl⟩
  | join hpath hmark =>
      exact ⟨_, follows_pass h hpath ((hsound.met_iff _).1 (hasMet_of_mark hmark rfl)) rfl rfl⟩

end Step

theorem preorder_finish (t : Tree) : (finish t).preorder = (trails t).map (·.1) := by
  obtain ⟨-, reached, h⟩ := finish_keeps (P := fun w => Sound t w ∧ ∃ reached, Follows t w reached)
    ⟨sound_start t, follows_start t⟩
    fun ⟨hsound, _, h⟩ hstep => ⟨sound_step hsound hstep, follows_step hsound h hstep⟩
  have hall : reached = trails t := by
    rw [← h.goOn_eq, (finish_spec t).2, goOn]
  rw [← h.ids_eq, hall]

end Traversal

/-! ## Both walks -/

theorem ids_longestPath (t : Tree) : (longestPath t).map (·.1) = reachableIds t := by
  rw [reachableIds_eq_trails, ← Traversal.preorder_finish, longestPath, List.map_map,
    List.map_reverse]
  exact congrArg List.reverse (List.map_id _)

/-- Both walks are the depth-first visit by recursion from the start, which records a node that has
not been reached at its depth and then visits its children in order one level below.  The first walk
finds the same nodes in the same order at the same depths, the second one the same nodes in the same
order.  Each node is found once, and found are exactly those to which children lead from the start,
if there is a start.  So both modes place the same nodes. -/
theorem walks_visit (t : Tree) :
    (∀ id depth reached, visit t Discovery.deeper id depth reached =
      if id ∈ reached.map (·.1) then reached
      else (t.children id).foldl
        (fun reached child => visit t Discovery.deeper child (depth + 1) reached)
        ((id, depth) :: reached)) ∧
      firstDiscovery t =
        (if t.isPlayable then visit t Discovery.deeper t.start 0 [] else []).reverse ∧
      (longestPath t).map (·.1) = (firstDiscovery t).map (·.1) ∧
      (reachableIds t).Nodup ∧
      (∀ id, id ∈ reachableIds t ↔
        t.isPlayable = true ∧ Relation.ReflTransGen t.Leads t.start id) ∧
      (t.start = "" ∨ t.node? t.start = none → reachableIds t = []) ∧
      ∀ {α : Type} [Coordinate α] (settings : Config α) (id : String),
        id ∈ (Layout.of t settings .compact).nodes.map (·.id) ↔
          id ∈ (Layout.of t settings .firstDiscovery).nodes.map (·.id) := by
  refine ⟨fun id depth => visit_eq t Discovery.deeper id depth, ?_, ids_longestPath t, ?_,
    fun id => mem_reachableIds_iff, ?_, fun settings id => ?_⟩
  · rw [firstDiscovery, Discovery.reached_finish, visitTree]
  · rw [reachableIds_eq_trails, List.nodup_reverse]
    exact (grounded_trails t).ids_nodup
  · intro hstart
    have hnot : ¬ t.isPlayable = true := by
      intro hplayable
      obtain ⟨hne, n, hn⟩ := Tree.hasNode_iff.1 hplayable
      rcases hstart with hempty | hnone
      · exact hne hempty
      · rw [hnone] at hn
        cases hn
    rw [reachableIds_eq_trails, trails, visitTree, if_neg hnot]
    rfl
  · rw [mem_ids_of_iff, mem_ids_of_iff]

end Dialogue.Layout
