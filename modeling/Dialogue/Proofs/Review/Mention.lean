import Dialogue.Proofs.Story.Targets
/-!
# What a vocabulary covers

Play reads flags and counters only through the gates, the texts and the adjustments of the node
where it stands.  `Tree.covers_of_mem` says that the vocabulary of a tree has all of these, and is
the one link between the collecting and play.
-/

namespace Dialogue

namespace Interpolation

theorem mem_mentions_iff {text name : String} :
    name ∈ mentions text ↔ ∃ body, Piece.token body ∈ pieces text.toList ∧ nameOf body = name := by
  simp only [mentions, List.mem_filterMap]
  constructor
  · rintro ⟨piece, hpiece, hname⟩
    cases piece with
    | plain c => cases hname
    | token body => exact ⟨body, hpiece, Option.some.inj hname⟩
  · rintro ⟨body, hbody, hname⟩
    exact ⟨.token body, hbody, congrArg some hname⟩

theorem flatMap_pieces_congr {text : String} {f g : Piece → List Char}
    (hplain : ∀ c, f (.plain c) = g (.plain c))
    (htoken : ∀ body, nameOf body ∈ mentions text → f (.token body) = g (.token body)) :
    (pieces text.toList).flatMap f = (pieces text.toList).flatMap g := by
  rw [List.flatMap_def, List.flatMap_def]
  congr 1
  refine List.map_congr_left fun piece hpiece => ?_
  cases piece with
  | plain c => exact hplain c
  | token body => exact htoken body (mem_mentions_iff.2 ⟨body, hpiece, rfl⟩)

/-- What is shown of a text depends on the counters that it mentions only. -/
theorem substitute_congr {text : String} {counters counters' : Counters}
    (h : ∀ name ∈ mentions text, counters.value? name = counters'.value? name) :
    substitute text counters = substitute text counters' := by
  refine congrArg String.ofList (flatMap_pieces_congr (fun c => rfl) fun body hname => ?_)
  simp only [Piece.shown, shown, h (nameOf body) hname]

end Interpolation

structure Vocabulary.CoversGate (v : Vocabulary) (g : Gate) : Prop where
  flags : ∀ flag ∈ g.flags, flag ∈ v.flags
  counters : ∀ key ∈ g.counters, key ∈ v.counters

def Vocabulary.CoversText (v : Vocabulary) (text : String) : Prop :=
  ∀ name ∈ Interpolation.mentions text, name ∈ v.counters

structure Vocabulary.Covers (v : Vocabulary) (n : Node) : Prop where
  gates : ∀ g ∈ n.gates, v.CoversGate g
  texts : ∀ text ∈ n.texts, v.CoversText text
  adjusted : ∀ c ∈ n.choices, ∀ a ∈ c.counterAdjustments, a.key ∈ v.counters

namespace Vocabulary

theorem mem_sorted_iff {names : List String} {name : String} :
    name ∈ sorted names ↔ name ∈ names := by
  simp [sorted, SortedMap.mem_keys_ofList]

namespace Covers

variable {v : Vocabulary} {n : Node}

theorem ownText (h : v.Covers n) : v.CoversText n.text :=
  h.texts n.text (by simp [Node.texts])

theorem variation (h : v.Covers n) {a : Variation} (ha : a ∈ n.otherTexts) :
    v.CoversText a.text ∧ ∀ g ∈ a.gate, v.CoversGate g := by
  refine ⟨h.texts _ ?_, fun g hg => h.gates g ?_⟩
  · simp only [Node.texts, List.cons_append, List.mem_cons, List.mem_append, List.mem_map]
    exact .inr (.inl ⟨a, ha, rfl⟩)
  · rw [Node.gates, List.mem_append, List.mem_filterMap]
    exact .inl ⟨a, ha, hg⟩

theorem choice (h : v.Covers n) {c : Choice} (hc : c ∈ n.choices) :
    v.CoversText c.text ∧ ∀ g ∈ c.gate, v.CoversGate g := by
  refine ⟨h.texts _ ?_, fun g hg => h.gates g ?_⟩
  · simp only [Node.texts, List.cons_append, List.mem_cons, List.mem_append, List.mem_map]
    exact .inr (.inr ⟨c, hc, rfl⟩)
  · rw [Node.gates, List.mem_append, List.mem_flatMap]
    exact .inr ⟨c, hc, List.mem_append_left _ (Option.mem_toList.2 hg)⟩

theorem detour (h : v.Covers n) {c : Choice} (hc : c ∈ n.choices) {d : Detour}
    (hd : d ∈ c.otherWays) : v.CoversGate d.gate := by
  refine h.gates _ ?_
  rw [Node.gates, List.mem_append, List.mem_flatMap]
  exact .inr ⟨c, hc, List.mem_append_right _ (List.mem_map_of_mem hd)⟩

theorem shown (h : v.Covers n) (w : World) : v.CoversText (n.shown w).1 := by
  unfold Node.shown
  cases hopen : firstOpen n.otherTexts w with
  | none => exact h.ownText
  | some a => exact (h.variation (mem_of_firstOpen hopen)).1

end Covers

end Vocabulary

theorem Tree.covers_of_mem {t : Tree} {n : Node} (hn : n ∈ t.nodes.values) :
    (Vocabulary.of t).Covers n where
  gates g hg := by
    constructor
    · intro flag hflag
      refine Vocabulary.mem_sorted_iff.2 (List.mem_flatMap.2 ⟨n, hn, List.mem_append_left _ ?_⟩)
      exact List.mem_flatMap.2 ⟨g, hg, hflag⟩
    · intro key hkey
      refine Vocabulary.mem_sorted_iff.2 (List.mem_flatMap.2 ⟨n, hn, List.mem_append_left _ ?_⟩)
      exact List.mem_append_right _ (List.mem_flatMap.2 ⟨g, hg, hkey⟩)
  texts text htext name hname := by
    refine Vocabulary.mem_sorted_iff.2 (List.mem_flatMap.2 ⟨n, hn, List.mem_append_left _ ?_⟩)
    exact List.mem_append_left _ (List.mem_flatMap.2 ⟨text, htext, hname⟩)
  adjusted c hc a ha := by
    refine Vocabulary.mem_sorted_iff.2 (List.mem_flatMap.2 ⟨n, hn, List.mem_append_right _ ?_⟩)
    exact List.mem_flatMap.2 ⟨c, hc, List.mem_map_of_mem ha⟩

end Dialogue
