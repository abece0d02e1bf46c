import Dialogue.Proofs.Layout.Locality
import Dialogue.Proofs.Review.Report
/-!
# What the order of nodes decides

Two trees may store the same nodes and the same characters in another order.  Then they are walked and
laid out alike, but for the places of the exits, and the linter finds the same in them in another
order.  Of what it tells once it may name another place.
-/

namespace Dialogue

/-! ## Catalogs -/

namespace Catalog

variable {α β γ : Type}

theorem flatMap_entries (c : Catalog α) (f : String → α → List γ) :
    (c.entries.flatMap fun e => f e.1 e.2) =
      c.keys.flatMap fun key => (c.get? key).toList.flatMap (f key) := by
  rw [keys, List.flatMap_map]
  refine List.flatMap_congr fun e he => ?_
  rw [get?_eq_some_iff.2 (show (e.1, e.2) ∈ c.entries from he)]
  simp

theorem mem_keys_iff {c : Catalog α} {key : String} : key ∈ c.keys ↔ (c.get? key).isSome = true :=
  contains_iff.symm

/-- What is collected from two catalogs key by key is the same up to its order. -/
theorem perm_flatMap {c : Catalog α} {d : Catalog β}
    (hkeys : ∀ key, (c.get? key).isSome = (d.get? key).isSome) {f : String → α → List γ}
    {g : String → β → List γ}
    (h : ∀ key, (c.get? key).toList.flatMap (f key) = (d.get? key).toList.flatMap (g key)) :
    (c.entries.flatMap fun e => f e.1 e.2).Perm (d.entries.flatMap fun e => g e.1 e.2) := by
  rw [flatMap_entries, flatMap_entries, ← funext h]
  refine List.Perm.flatMap_right _ ?_
  refine (List.perm_ext_iff_of_nodup c.nodup d.nodup).2 fun key => ?_
  rw [← keys, ← keys, mem_keys_iff, mem_keys_iff, hkeys]

end Catalog

/-! ## The same in another order -/

structure Character.SameUpToOrder (c d : Character) : Prop where
  name : d.name = c.name
  defaultEmotion : d.defaultEmotion = c.defaultEmotion
  portraits : ∀ emotion, d.portraits.get? emotion = c.portraits.get? emotion

structure Tree.SameUpToOrder (t u : Tree) : Prop where
  name : u.name = t.name
  start : u.start = t.start
  nodes : ∀ id, u.node? id = t.node? id
  characters : ∀ id, Option.Rel Character.SameUpToOrder (t.character? id) (u.character? id)

structure Layout.SameUpToOrder {α : Type} (l m : Layout α) : Prop where
  mode : m.mode = l.mode
  nodes : m.nodes = l.nodes
  edges : m.edges = l.edges
  statuses : (m.exits.map (·.status)).Perm (l.exits.map (·.status))
  positions : m.exits.map (·.position) = l.exits.map (·.position)

/-- The same is told of both trees in another order.  What is told once for several places is told of
the same exits and counters, but it may name another of the places. -/
structure Tree.ReviewedAlike (t u : Tree) : Prop where
  issues : ∀ k : IssueKind, k ≠ .exitClash → k ≠ .unwrittenVariable →
    (u.lint.ofKind k).Perm (t.lint.ofKind k)
  subjects : ∀ k : IssueKind,
    ((Finding.ofKind k u.findings).map Finding.subject).Perm
      ((Finding.ofKind k t.findings).map Finding.subject)

namespace Layout

variable {α : Type} [Coordinate α] (t : Tree) (settings : Config α) (mode : Mode)

theorem statuses_of : (of t settings mode).exits.map (·.status) = exitStatuses t := by
  simp [of, placedExits, Function.comp_def]

/-- Where the exits stand depends on the cards and on how many exits there are. -/
theorem positions_exits_of : (of t settings mode).exits.map (·.position) =
    (List.range (exitStatuses t).length).map fun i =>
      ⟨rightmost ((of t settings mode).nodes.map (·.position.x)) + settings.exitOffset,
        Coordinate.ofCount i * settings.exitSpacing⟩ := by
  rw [List.range_eq_range', ← List.zipIdx_map_snd, List.map_map]
  simp [of, placedExits, Function.comp_def]

end Layout

namespace Tree.SameUpToOrder

variable {t u : Tree}

theorem sameInReach (h : t.SameUpToOrder u) : t.SameInReach u where
  start := h.start
  opening := h.nodes _
  reached id _ := h.nodes id
  named _ _ _ target _ _ _ _ := h.nodes target

theorem hasNode_eq (h : t.SameUpToOrder u) (id : String) : u.hasNode id = t.hasNode id :=
  hasNode_congr (h.nodes id)

theorem contains_characters_eq (h : t.SameUpToOrder u) (id : String) :
    u.characters.contains id = t.characters.contains id := by
  have hcharacter := h.characters id
  unfold Catalog.contains
  unfold character? at hcharacter
  generalize t.characters.get? id = x, u.characters.get? id = y at hcharacter
  cases hcharacter <;> rfl

theorem perm_nodes {γ : Type} (h : t.SameUpToOrder u) (f : String → Node → List γ) :
    (u.nodes.entries.flatMap fun e => f e.1 e.2).Perm (t.nodes.entries.flatMap fun e => f e.1 e.2) :=
  Catalog.perm_flatMap (fun id => congrArg Option.isSome (h.nodes id))
    fun id => by rw [show u.nodes.get? id = t.nodes.get? id from h.nodes id]

theorem perm_choices (h : t.SameUpToOrder u) : u.choices.Perm t.choices :=
  h.perm_nodes fun id n => n.choices.map fun choice => (id, choice)

/-! ### Layout -/

theorem perm_exitStatuses (h : t.SameUpToOrder u) :
    (Layout.exitStatuses u).Perm (Layout.exitStatuses t) := by
  refine (List.perm_ext_iff_of_nodup (nodup_eraseDups _) (nodup_eraseDups _)).2 fun status => ?_
  rw [List.mem_eraseDups, List.mem_eraseDups]
  exact (h.perm_choices.filterMap _).mem_iff

theorem reachableIds_eq (h : t.SameUpToOrder u) : Layout.reachableIds u = Layout.reachableIds t :=
  congrArg (List.map Prod.fst) (Layout.order_eq h.sameInReach .firstDiscovery)

theorem layout (h : t.SameUpToOrder u) {α : Type} [Layout.Coordinate α] (settings : Layout.Config α)
    (mode : Layout.Mode) :
    (Layout.of t settings mode).SameUpToOrder (Layout.of u settings mode) := by
  have hnodes : (Layout.of u settings mode).nodes = (Layout.of t settings mode).nodes :=
    Layout.placedNodes_eq h.sameInReach settings mode
  refine ⟨rfl, hnodes, ?_, ?_, ?_⟩
  · change Layout.drawnEdges u ((Layout.of u settings mode).nodes.map (·.id)) =
      Layout.drawnEdges t ((Layout.of t settings mode).nodes.map (·.id))
    rw [hnodes]
    exact Layout.drawnEdges_congr fun id _ => h.nodes id
  · rw [Layout.statuses_of, Layout.statuses_of]
    exact h.perm_exitStatuses
  · rw [Layout.positions_exits_of, Layout.positions_exits_of, hnodes, h.perm_exitStatuses.length_eq]

/-! ### Review -/

open Finding

theorem ofNode_eq (h : t.SameUpToOrder u) : ofNode u = ofNode t := by
  funext reached node n
  have hdangling : ∀ c, u.isDangling c = t.isDangling c := fun c => by
    rw [isDangling, isDangling, h.hasNode_eq]
  have hplayable : u.isPlayable = t.isPlayable := h.sameInReach.isPlayable_eq
  have hdetour : ofDetour u = ofDetour t := by
    funext node choice detour
    rw [ofDetour, ofDetour, h.hasNode_eq]
  have hexit : ofExit u = ofExit t := by
    funext node choice status
    rw [ofExit, ofExit, h.hasNode_eq]
  have hchoice : ofChoice u = ofChoice t := by
    funext node c
    rw [ofChoice, ofChoice, hdangling, hdetour, hexit]
  rw [ofNode, ofNode, hplayable, hchoice, h.contains_characters_eq]

theorem ofCharacter_eq {c d : Character} (h : c.SameUpToOrder d) (id : String) :
    ofCharacter id d = ofCharacter id c := by
  rw [ofCharacter, ofCharacter, Catalog.contains, Catalog.contains, h.portraits, h.defaultEmotion]

theorem perm_ofShownCounters (h : t.SameUpToOrder u) :
    (ofShownCounters u).Perm (ofShownCounters t) := by
  have hwritten : ∀ name, (u.nodes.values.flatMap Node.writtenCounters).contains name =
      (t.nodes.values.flatMap Node.writtenCounters).contains name := fun name => by
    rw [Bool.eq_iff_iff, List.contains_iff_mem, List.contains_iff_mem, Catalog.values,
      Catalog.values, List.flatMap_map, List.flatMap_map]
    exact (h.perm_nodes fun _ n => n.writtenCounters).mem_iff
  simp only [ofShownCounters, hwritten]
  exact h.perm_nodes fun id n => (n.shownCounters.filter fun name =>
    !(t.nodes.values.flatMap Node.writtenCounters).contains name).map (unwrittenVariable id)

theorem perm_rawFindings (h : t.SameUpToOrder u) : u.rawFindings.Perm t.rawFindings := by
  have hcharacters : (u.characters.entries.flatMap fun e => ofCharacter e.1 e.2).Perm
      (t.characters.entries.flatMap fun e => ofCharacter e.1 e.2) := by
    refine Catalog.perm_flatMap (fun id => h.contains_characters_eq id) fun id => ?_
    have hcharacter := h.characters id
    unfold character? at hcharacter
    generalize t.characters.get? id = x, u.characters.get? id = y at hcharacter
    cases hcharacter with
    | none => rfl
    | some hsame => simp [ofCharacter_eq hsame]
  simp only [rawFindings, h.sameInReach.isPlayable_eq, h.start, h.reachableIds_eq, h.ofNode_eq]
  exact ((List.Perm.refl _).append hcharacters).append (h.perm_nodes _) |>.append
    h.perm_ofShownCounters

theorem perm_subjects (h : t.SameUpToOrder u) {k : IssueKind}
    (honce : k = .exitClash ∨ k = .unwrittenVariable) :
    ((ofKind k u.findings).map subject).Perm ((ofKind k t.findings).map subject) := by
  rw [u.map_subject_findings honce, t.map_subject_findings honce]
  refine (List.perm_ext_iff_of_nodup (nodup_eraseDups _) (nodup_eraseDups _)).2 fun name => ?_
  rw [List.mem_eraseDups, List.mem_eraseDups]
  exact ((h.perm_rawFindings.filter _).map subject).mem_iff

theorem reviewedAlike (h : t.SameUpToOrder u) : t.ReviewedAlike u := by
  have hissues : ∀ k : IssueKind, k ≠ .exitClash → k ≠ .unwrittenVariable →
      (ofKind k u.findings).Perm (ofKind k t.findings) := fun k hclash hcounter => by
    rw [ofKind_findings_of_ne u hclash hcounter, ofKind_findings_of_ne t hclash hcounter]
    exact h.perm_rawFindings.filter _
  constructor
  · intro k hclash hcounter
    rw [ofKind_lint, ofKind_lint]
    exact (hissues k hclash hcounter).map _
  · intro k
    by_cases honce : k = .exitClash ∨ k = .unwrittenVariable
    · exact h.perm_subjects honce
    · obtain ⟨hclash, hcounter⟩ := not_or.1 honce
      exact (hissues k hclash hcounter).map _

end Tree.SameUpToOrder

end Dialogue
