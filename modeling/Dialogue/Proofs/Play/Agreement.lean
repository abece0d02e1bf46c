import Dialogue.Proofs.Play.Step
import Dialogue.Proofs.Review.Mention
import Dialogue.Proofs.Story.Effect
/-!
# Play depends on the vocabulary only

A player cannot tell apart two sessions that stand at the same node and agree on the vocabulary of
the tree.  What a node reads is covered by the vocabulary, and what a choice writes depends on what
it reads, so that two such sessions agree again after each move.
-/

namespace Dialogue

structure World.AgreeOn (v : Vocabulary) (w w' : World) : Prop where
  flags : ∀ flag ∈ v.flags, w.flags.contains flag = w'.flags.contains flag
  counters : ∀ key ∈ v.counters, w.counters.value? key = w'.counters.value? key

namespace World.AgreeOn

variable {v : Vocabulary} {w w' : World}

theorem get (h : AgreeOn v w w') {key : String} (hkey : key ∈ v.counters) :
    w.counters.get key = w'.counters.get key := by
  rw [Counters.get, Counters.get, h.counters key hkey]

section Gates

variable {g : Gate}

theorem all_required (h : AgreeOn v w w') (hg : v.CoversGate g) :
    g.requiredFlags.all w.flags.contains = g.requiredFlags.all w'.flags.contains := by
  rw [Bool.eq_iff_iff, List.all_eq_true, List.all_eq_true]
  refine forall₂_congr fun flag hflag => ?_
  rw [h.flags flag (hg.flags flag (List.mem_append_left _ hflag))]

theorem any_blocked (h : AgreeOn v w w') (hg : v.CoversGate g) :
    g.blockedFlags.any w.flags.contains = g.blockedFlags.any w'.flags.contains := by
  rw [Bool.eq_iff_iff, List.any_eq_true, List.any_eq_true]
  refine exists_congr fun flag => and_congr_right fun hflag => ?_
  rw [h.flags flag (hg.flags flag (List.mem_append_right _ hflag))]

theorem all_conditions (h : AgreeOn v w w') (hg : v.CoversGate g) :
    (g.counterConditions.all fun condition => condition.holds w.counters) =
      g.counterConditions.all fun condition => condition.holds w'.counters := by
  rw [Bool.eq_iff_iff, List.all_eq_true, List.all_eq_true]
  refine forall₂_congr fun condition hcondition => ?_
  have hkey : condition.key ∈ v.counters := hg.counters _ (List.mem_map_of_mem hcondition)
  rw [Condition.holds, Condition.holds, h.get hkey]

theorem gate_isOpen (h : AgreeOn v w w') (hg : v.CoversGate g) : g.isOpen w = g.isOpen w' := by
  rw [Gate.isOpen, Gate.isOpen, h.all_required hg, h.any_blocked hg, h.all_conditions hg]

theorem gate_reasons (h : AgreeOn v w w') (hg : v.CoversGate g) :
    g.reasons w.flags = g.reasons w'.flags := by
  rw [Gate.reasons, Gate.reasons, h.all_required hg, h.any_blocked hg]

end Gates

theorem isOpen {gate : Option Gate} (h : AgreeOn v w w') (hgate : ∀ g ∈ gate, v.CoversGate g) :
    Dialogue.isOpen gate w = Dialogue.isOpen gate w' := by
  cases gate with
  | none => rfl
  | some g => exact h.gate_isOpen (hgate g rfl)

theorem firstOpen {α : Type} [Gated α] {candidates : List α} (h : AgreeOn v w w')
    (hgates : ∀ a ∈ candidates, ∀ g ∈ Gated.gate a, v.CoversGate g) :
    Dialogue.firstOpen candidates w = Dialogue.firstOpen candidates w' := by
  unfold Dialogue.firstOpen
  induction candidates with
  | nil => rfl
  | cons a rest ih =>
      have hhead := h.isOpen (hgates a List.mem_cons_self)
      have htail := ih fun b hb => hgates b (List.mem_cons_of_mem _ hb)
      rw [List.find?_cons, List.find?_cons, hhead, htail]

theorem flagChanges (h : AgreeOn v w w') (changes : FlagChanges) :
    ∀ flag ∈ v.flags,
      (changes.apply w.flags).contains flag = (changes.apply w'.flags).contains flag := by
  intro flag hflag
  rw [FlagChanges.contains_apply, FlagChanges.contains_apply, h.flags flag hflag]

/-- An adjustment reads the counter that it writes, so agreement needs that counter to be in the
vocabulary. -/
theorem adjustments {keys : List String} {adjustments : List Adjustment}
    {counters counters' : Counters} (hkeys : ∀ a ∈ adjustments, a.key ∈ keys)
    (h : ∀ key ∈ keys, counters.value? key = counters'.value? key) :
    ∀ key ∈ keys,
      (adjustments.foldl (fun counters a => a.apply counters) counters).value? key =
        (adjustments.foldl (fun counters a => a.apply counters) counters').value? key := by
  induction adjustments generalizing counters counters' with
  | nil => exact h
  | cons a rest ih =>
      rw [List.foldl_cons, List.foldl_cons]
      refine ih (fun b hb => hkeys b (List.mem_cons_of_mem _ hb)) fun key hkey => ?_
      have hread : counters.get a.key = counters'.get a.key := by
        rw [Counters.get, Counters.get, h a.key (hkeys a List.mem_cons_self)]
      rw [Adjustment.value?_apply, Adjustment.value?_apply, hread, h key hkey]

section Nodes

variable {n : Node} {c : Choice}

theorem effect (h : AgreeOn v w w') (hn : v.Covers n) (hc : c ∈ n.choices) :
    AgreeOn v (c.effect w) (c.effect w') where
  flags := by
    unfold Choice.effect
    cases c.flagChanges with
    | none => exact h.flags
    | some changes => exact h.flagChanges changes
  counters := adjustments (hn.adjusted c hc) h.counters

theorem destination (h : AgreeOn v w w') (hn : v.Covers n) (hc : c ∈ n.choices) :
    c.destination w = c.destination w' := by
  have hgates : ∀ d ∈ c.otherWays, ∀ g ∈ Gated.gate d, v.CoversGate g := by
    intro d hd g hg
    cases hg
    exact hn.detour hc hd
  rw [Choice.destination, Choice.destination, h.firstOpen hgates]

theorem lockedReason (h : AgreeOn v w w') (hn : v.Covers n) (hc : c ∈ n.choices) :
    c.lockedReason w.flags = c.lockedReason w'.flags := by
  unfold Choice.lockedReason
  cases hgate : c.gate with
  | none => rfl
  | some g => simp only [h.gate_reasons ((hn.choice hc).2 g hgate)]

theorem shown (h : AgreeOn v w w') (hn : v.Covers n) : n.shown w = n.shown w' := by
  have hgates : ∀ a ∈ n.otherTexts, ∀ g ∈ Gated.gate a, v.CoversGate g :=
    fun a ha => (hn.variation ha).2
  rw [Node.shown, Node.shown, h.firstOpen hgates]

theorem substitute {text : String} (h : AgreeOn v w w') (htext : v.CoversText text) :
    Interpolation.substitute text w.counters = Interpolation.substitute text w'.counters :=
  Interpolation.substitute_congr fun name hname => h.counters name (htext name hname)

theorem message (h : AgreeOn v w w') (hn : v.Covers n) (t : Tree)
    {config config' : Session.Config} (hportrait : config.portrait = config'.portrait)
    (via : Option String) : Message.of t config n w via = Message.of t config' n w' via := by
  have htext := h.substitute (hn.shown w)
  simp only [Message.of, ← h.shown hn, htext, hportrait]

end Nodes

end World.AgreeOn

end Dialogue
