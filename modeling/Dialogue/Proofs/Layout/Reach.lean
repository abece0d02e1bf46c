import Dialogue.Layout.Graph
import Dialogue.Proofs.Story.Targets
import Mathlib
/-!
# Reaching nodes

What it means that a node can be reached, independently of any walk, and what the two walks through
the graph share: a bounded iteration ends when every step lowers a measure, and the measure of a
walk counts the nodes that it has not met.
-/

namespace Dialogue

namespace Tree

def Leads (t : Tree) (id child : String) : Prop := child ∈ t.children id

def Reaches (t : Tree) (id : String) : Prop :=
  t.isPlayable = true ∧ Relation.ReflTransGen t.Leads t.start id

theorem hasNode_of_mem_children {t : Tree} {id child : String} (h : child ∈ t.children id) :
    t.hasNode child = true := by
  unfold children at h
  cases hnode : t.node? id with
  | none =>
      rw [hnode] at h
      exact absurd h List.not_mem_nil
  | some n =>
      rw [hnode] at h
      exact (List.mem_filter.1 h).2

theorem mem_children_of_mem_targets {t : Tree} {id target : String} {n : Node} {c : Choice}
    (hn : t.node? id = some n) (hc : c ∈ n.choices) (htarget : target ∈ c.targets)
    (hfound : t.hasNode target = true) : target ∈ t.children id := by
  unfold children
  rw [hn]
  exact List.mem_filter.2 ⟨List.mem_flatMap.2 ⟨c, hc, htarget⟩, hfound⟩

theorem reaches_start {t : Tree} (h : t.isPlayable = true) : t.Reaches t.start :=
  ⟨h, .refl⟩

theorem Reaches.child {t : Tree} {id child : String} (h : t.Reaches id)
    (hchild : child ∈ t.children id) : t.Reaches child :=
  ⟨h.1, h.2.tail hchild⟩

theorem Reaches.hasNode {t : Tree} {id : String} (h : t.Reaches id) : t.hasNode id = true := by
  rcases h.2.cases_tail with rfl | ⟨parent, -, hchild⟩
  · exact h.1
  · exact hasNode_of_mem_children hchild

theorem Reaches.mem_keys {t : Tree} {id : String} (h : t.Reaches id) : id ∈ t.nodes.keys :=
  (hasNode_iff_mem_keys.1 h.hasNode).2

/-- What holds of the start and passes on to children holds of all nodes that can be reached. -/
theorem Reaches.rec_children {t : Tree} {P : String → Prop} {id : String} (h : t.Reaches id)
    (hstart : P t.start) (hchildren : ∀ id, P id → ∀ child ∈ t.children id, P child) : P id := by
  obtain ⟨-, hpath⟩ := h
  induction hpath with
  | refl => exact hstart
  | tail _ hchild ih => exact hchildren _ ih _ hchild

end Tree

namespace Layout

theorem iterate_keeps {σ : Type} {step : σ → Option σ} {P : σ → Prop}
    (hstep : ∀ {s s'}, P s → step s = some s' → P s') {s : σ} (h : P s) (budget : Nat) :
    P (iterate step budget s) := by
  induction budget generalizing s with
  | zero => exact h
  | succ budget ih =>
      unfold iterate
      cases hnext : step s with
      | none => exact h
      | some s' => exact ih (hstep h hnext)

/-- An iteration whose steps keep an invariant and lower a measure comes to its end within a budget
of that measure, and the invariant holds there. -/
theorem iterate_spec {σ : Type} {step : σ → Option σ} (P : σ → Prop) (μ : σ → Nat)
    (hstep : ∀ {s s'}, P s → step s = some s' → P s' ∧ μ s' < μ s) {budget : Nat} {s : σ}
    (h : P s) (hbudget : μ s ≤ budget) :
    P (iterate step budget s) ∧ step (iterate step budget s) = none := by
  induction budget generalizing s with
  | zero =>
      refine ⟨h, ?_⟩
      cases hnext : step s with
      | none => exact hnext
      | some s' =>
          have hlt := (hstep h hnext).2
          omega
  | succ budget ih =>
      unfold iterate
      cases hnext : step s with
      | none => exact ⟨h, hnext⟩
      | some s' =>
          obtain ⟨hs', hlt⟩ := hstep h hnext
          exact ih hs' (by omega)

/-- Two iterations whose steps agree wherever an invariant of the first one holds end in the same
place, if both come to their end. -/
theorem iterate_eq_of_agree {σ : Type} {step step' : σ → Option σ} {P : σ → Prop}
    (hkeep : ∀ {s s'}, P s → step s = some s' → P s') (hagree : ∀ {s}, P s → step' s = step s)
    {budget budget' : Nat} {s : σ} (h : P s) (hend : step (iterate step budget s) = none)
    (hend' : step' (iterate step' budget' s) = none) :
    iterate step' budget' s = iterate step budget s := by
  induction budget generalizing budget' s with
  | zero =>
      have hnone : step' s = none := (hagree h).trans hend
      cases budget' with
      | zero => rfl
      | succ budget' => simp only [iterate, hnone]
  | succ budget ih =>
      cases hnext : step s with
      | none =>
          have hnone : step' s = none := (hagree h).trans hnext
          cases budget' with
          | zero => simp only [iterate, hnext]
          | succ budget' => simp only [iterate, hnext, hnone]
      | some s' =>
          have hnext' : step' s = some s' := (hagree h).trans hnext
          simp only [iterate, hnext] at hend ⊢
          cases budget' with
          | zero =>
              -- the second iteration would have stopped where it can still go on
              rw [iterate, hnext'] at hend'
              cases hend'
          | succ budget' =>
              simp only [iterate, hnext'] at hend' ⊢
              exact ih (hkeep h hnext) hend hend'

def unmetWeight (t : Tree) (met : String → Bool) (weight : String → Nat) : Nat :=
  (t.nodes.keys.map fun id => if met id then 0 else weight id).sum

private theorem sum_map_meet {keys : List String} (hnodup : keys.Nodup) {met met' : String → Bool}
    {weight : String → Nat} {id : String} (hid : id ∈ keys) (hnew : met id = false)
    (hmet : ∀ key, met' key = (decide (key = id) || met key)) :
    (keys.map fun key => if met' key then 0 else weight key).sum + weight id =
      (keys.map fun key => if met key then 0 else weight key).sum := by
  induction keys with
  | nil => exact absurd hid List.not_mem_nil
  | cons key rest ih =>
      obtain ⟨hkey, hrest⟩ := List.nodup_cons.1 hnodup
      simp only [List.map_cons, List.sum_cons]
      by_cases heq : key = id
      · subst heq
        have hsame : (rest.map fun k => if met' k then 0 else weight k) =
            rest.map fun k => if met k then 0 else weight k := by
          refine List.map_congr_left fun k hk => ?_
          have hne : k ≠ key := fun hok => hkey (hok ▸ hk)
          simp [hmet, hne]
        rw [hsame]
        simp [hmet, hnew, Nat.add_comm]
      · have hmem : id ∈ rest := (List.mem_cons.1 hid).resolve_left (Ne.symm heq)
        have hhead : met' key = met key := by simp [hmet, heq]
        have htail := ih hrest hmem
        rw [hhead]
        omega

theorem unmetWeight_meet {t : Tree} {met met' : String → Bool} (weight : String → Nat)
    {id : String} (hid : id ∈ t.nodes.keys) (hnew : met id = false)
    (hmet : ∀ key, met' key = (decide (key = id) || met key)) :
    unmetWeight t met' weight + weight id = unmetWeight t met weight :=
  sum_map_meet t.nodes.nodup hid hnew hmet

/-- Before anything is met, the lists of children weigh as much as the graph has edges. -/
theorem unmetWeight_children (t : Tree) :
    unmetWeight t (fun _ => false) (fun id => (t.children id).length) = t.edgeCount := by
  simp [unmetWeight, Tree.edgeCount, List.length_flatMap]

private theorem sum_map_add_one {ids : List String} (weight : String → Nat) :
    (ids.map fun id => weight id + 1).sum = (ids.map weight).sum + ids.length := by
  induction ids with
  | nil => rfl
  | cons id rest ih =>
      simp only [List.map_cons, List.sum_cons, List.length_cons, ih]
      omega

/-- With one more for each node, they weigh as much as edges and nodes together. -/
theorem unmetWeight_children_add_one (t : Tree) :
    unmetWeight t (fun _ => false) (fun id => (t.children id).length + 1) =
      t.edgeCount + t.nodes.size := by
  simp only [unmetWeight, Bool.false_eq_true, if_false, sum_map_add_one, Tree.edgeCount,
    List.length_flatMap]
  simp [Catalog.keys, Catalog.size]

end Layout

end Dialogue
