import Dialogue.Proofs.Layout.Placement
import Dialogue.Proofs.Play.Step
import Dialogue.Proofs.Review.Findings
/-!
# Whether a tree can be played

The review and the map ask whether the start leads to a node, for which an empty id never does.  Play
looks the start up under whatever id it has.  So the two sides agree unless a node is stored under the
empty id and the tree starts there.
-/

namespace Dialogue

variable {t : Tree}

namespace Tree

theorem isPlayable_iff : t.isPlayable = true ↔ t.start ≠ "" ∧ ∃ n, t.startNode? = some n :=
  hasNode_iff

/-! ## Review and map -/

theorem lint_missingStart_eq_nil_iff :
    t.lint.ofKind .missingStart = [] ↔ t.isPlayable = true :=
  ⟨isPlayable_of_lint, ofKind_missingStart_of_isPlayable⟩

theorem ne_nil_iff_of_reaches {ids : List String} (h : ∀ id, id ∈ ids ↔ t.Reaches id) :
    ids ≠ [] ↔ t.isPlayable = true := by
  constructor
  · intro hids
    obtain ⟨id, hid⟩ := List.exists_mem_of_ne_nil ids hids
    exact ((h id).1 hid).1
  · intro hplayable
    exact List.ne_nil_of_mem ((h t.start).2 (reaches_start hplayable))

theorem reachableIds_ne_nil_iff : Layout.reachableIds t ≠ [] ↔ t.isPlayable = true :=
  ne_nil_iff_of_reaches fun _ => Layout.mem_reachableIds_iff

theorem nodes_of_ne_nil_iff {α : Type} [Layout.Coordinate α] (settings : Layout.Config α)
    (mode : Layout.Mode) : (Layout.of t settings mode).nodes ≠ [] ↔ t.isPlayable = true := by
  have hids : ∀ id, id ∈ (Layout.of t settings mode).nodes.map (·.id) ↔ t.Reaches id :=
    fun _ => Layout.mem_ids_of_iff
  rw [← ne_nil_iff_of_reaches hids, ne_eq, ne_eq, List.map_eq_nil_iff]

/-! ## Play -/

theorem start_active_iff (config : Session.Config) :
    (Session.start t config).snapshot.status = .active ∧
        (Session.start t config).snapshot.transcript.length = 1 ↔
      ∃ n, t.startNode? = some n := by
  unfold Session.start Snapshot.initial
  cases t.startNode? <;> simp

/-! ## Both sides -/

/-- Six parts of the program decide whether a tree can be played: they all agree exactly if the tree
does not start at a node that is stored under the empty id. -/
theorem playability_tfae_iff {α : Type} [Layout.Coordinate α] (t : Tree)
    (settings : Layout.Config α) (mode : Layout.Mode) :
    List.TFAE
        [t.isPlayable = true,
         ∃ n, t.startNode? = some n,
         (Session.start t .bare).snapshot.status = .active ∧
           (Session.start t .bare).snapshot.transcript.length = 1,
         t.lint.ofKind .missingStart = [],
         (Layout.of t settings mode).nodes ≠ [],
         Layout.reachableIds t ≠ []] ↔
      (t.start = "" → t.startNode? = none) := by
  constructor
  · intro h hempty
    have hplay := h.out 0 1
    cases hstart : t.startNode? with
    | none => rfl
    | some n =>
        have hplayable : t.isPlayable = true := hplay.2 ⟨n, hstart⟩
        exact absurd hempty (isPlayable_iff.1 hplayable).1
  · intro h
    have hplay : (∃ n, t.startNode? = some n) ↔ t.isPlayable = true := by
      rw [isPlayable_iff, iff_and_self]
      rintro ⟨n, hn⟩ hempty
      rw [h hempty] at hn
      cases hn
    refine List.tfae_of_forall (t.isPlayable = true) _ ?_
    simp only [List.forall_mem_cons]
    exact ⟨trivial, hplay, (start_active_iff .bare).trans hplay, lint_missingStart_eq_nil_iff,
      nodes_of_ne_nil_iff settings mode, reachableIds_ne_nil_iff, List.forall_mem_nil _⟩

/-- A tree that starts at its only node, which is stored under the empty id. -/
def nameless : Tree := (Tree.bare "nameless" "").withNode (Node.line "" "Nobody" "Hello?")

/-- It is played from a node that neither the review nor the map knows. -/
theorem not_playability_tfae_nameless :
    (∃ n, nameless.startNode? = some n) ∧
      ((Session.start nameless .bare).snapshot.status = .active ∧
        (Session.start nameless .bare).snapshot.transcript.length = 1) ∧
      nameless.isPlayable = false ∧
      nameless.lint.ofKind .missingStart ≠ [] ∧
      Layout.reachableIds nameless = [] ∧
      ¬ List.TFAE
        [nameless.isPlayable = true,
         ∃ n, nameless.startNode? = some n,
         (Session.start nameless .bare).snapshot.status = .active ∧
           (Session.start nameless .bare).snapshot.transcript.length = 1,
         nameless.lint.ofKind .missingStart = [],
         (Layout.of nameless (Layout.Config.standard : Layout.Config Float)
           .firstDiscovery).nodes ≠ [],
         Layout.reachableIds nameless ≠ []] := by
  have hstart : ∃ n, nameless.startNode? = some n := ⟨_, rfl⟩
  have hnot : nameless.isPlayable = false := by decide
  have hactive := (start_active_iff .bare).2 hstart
  have hlint : nameless.lint.ofKind .missingStart ≠ [] := by
    simp [lint_missingStart_eq_nil_iff, hnot]
  have hreach : Layout.reachableIds nameless = [] := by
    rw [← not_ne_iff, reachableIds_ne_nil_iff, hnot]
    simp
  refine ⟨hstart, hactive, hnot, hlint, hreach, fun h => ?_⟩
  have hplayable := (h.out 0 1).2 hstart
  rw [hnot] at hplayable
  cases hplayable

end Tree

end Dialogue
