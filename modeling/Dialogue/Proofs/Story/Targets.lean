import Dialogue.Review.Annotation
import Dialogue.Play.Session
/-!
# Where identifiers lead

Three expressions decide whether an identifier leads to a node: `Tree.hasNode`, `Tree.target?` and,
through `Tree.isDangling`, the review.  They agree, and a choice always leads to one of its targets.
-/

namespace Dialogue

theorem mem_of_firstOpen {α : Type} [Gated α] {candidates : List α} {w : World} {a : α}
    (h : firstOpen candidates w = some a) : a ∈ candidates := by
  unfold firstOpen at h
  exact List.mem_of_find?_eq_some h

theorem Choice.destination_mem_targets (c : Choice) (w : World) :
    c.destination w ∈ c.targets := by
  unfold Choice.destination Choice.targets
  cases h : firstOpen c.otherWays w with
  | none => exact List.mem_cons_self
  | some detour =>
      have hmem : detour ∈ c.otherWays := mem_of_firstOpen h
      exact List.mem_cons_of_mem _ (List.mem_map_of_mem hmem)

theorem Choice.destination_eq_target {c : Choice} (h : c.otherWays = []) (w : World) :
    c.destination w = c.target := by
  rw [destination, h]
  rfl

namespace Tree

theorem isDangling_iff {t : Tree} {c : Choice} :
    t.isDangling c = true ↔ c.exitStatus = none ∧ t.hasNode c.target = false := by
  rw [isDangling, Bool.and_eq_true, Option.isNone_iff_eq_none, Bool.not_eq_true',
    Choice.exitStatus, Option.map_eq_none_iff]

theorem hasNode_iff {t : Tree} {id : String} :
    t.hasNode id = true ↔ id ≠ "" ∧ ∃ n, t.node? id = some n := by
  simp only [hasNode, node?, Catalog.contains, Bool.and_eq_true, decide_eq_true_eq,
    Option.isSome_iff_exists]

theorem target?_eq_some_iff {t : Tree} {id : String} {n : Node} :
    t.target? id = some n ↔ id ≠ "" ∧ t.node? id = some n := by
  unfold target?
  split <;> simp_all

theorem isSome_target? (t : Tree) (id : String) : (t.target? id).isSome = t.hasNode id := by
  rw [Bool.eq_iff_iff, Option.isSome_iff_exists, hasNode_iff]
  simp only [target?_eq_some_iff, exists_and_left]

theorem hasNode_of_target? {t : Tree} {id : String} {n : Node} (h : t.target? id = some n) :
    t.hasNode id = true := by
  rw [← isSome_target?, h]
  rfl

theorem target?_ne_none {t : Tree} {id : String} (h : t.hasNode id = true) :
    t.target? id ≠ none := by
  rw [← isSome_target?] at h
  exact Option.isSome_iff_ne_none.1 h

theorem mem_entries_of_node? {t : Tree} {id : String} {n : Node} (h : t.node? id = some n) :
    (id, n) ∈ t.nodes.entries :=
  Catalog.get?_eq_some_iff.1 h

theorem mem_keys_of_node? {t : Tree} {id : String} {n : Node} (h : t.node? id = some n) :
    id ∈ t.nodes.keys :=
  List.mem_map_of_mem (f := (·.1)) (mem_entries_of_node? h)

theorem exists_node?_of_mem_keys {t : Tree} {id : String} (h : id ∈ t.nodes.keys) :
    ∃ n, t.node? id = some n := by
  obtain ⟨⟨_, n⟩, hentry, rfl⟩ := List.mem_map.1 h
  exact ⟨n, Catalog.get?_eq_some_iff.2 hentry⟩

theorem mem_values_of_node? {t : Tree} {id : String} {n : Node} (h : t.node? id = some n) :
    n ∈ t.nodes.values :=
  List.mem_map_of_mem (f := (·.2)) (mem_entries_of_node? h)

theorem hasNode_iff_mem_keys {t : Tree} {id : String} :
    t.hasNode id = true ↔ id ≠ "" ∧ id ∈ t.nodes.keys := by
  rw [hasNode, Bool.and_eq_true, decide_eq_true_eq, Catalog.contains_iff]

end Tree

end Dialogue
