import Dialogue.Proofs.Play.Agreement
/-!
# Sessions that a player cannot tell apart

`agree_taken` is the step of a simulation between two sessions that agree on the vocabulary of
their tree: a choice does the same in both and adds the same lines.  `converse_agree` carries it
over a whole conversation.
-/

namespace Dialogue

namespace Session

inductive Request where
  | offers
  | apply (id : String)
  | choose (index : Nat)
  deriving DecidableEq

inductive Reply where
  | offered (offers : List Offer)
  | answered (answer : Answer)
  deriving DecidableEq

def respond (s : Session) : Request → Reply × Session
  | .offers => (.offered s.offers, s)
  | .apply id =>
      let (answer, s) := s.perform (.apply id)
      (.answered answer, s)
  | .choose index =>
      let (answer, s) := s.perform (.choose index)
      (.answered answer, s)

def converse (s : Session) : List Request → List Reply × Session
  | [] => ([], s)
  | request :: requests =>
      let (reply, s) := s.respond request
      let (replies, s) := converse s requests
      (reply :: replies, s)

/-- Two sessions play the same tree with the same fallback for portraits, stand at the same node in
the same status, and agree on the vocabulary of the tree. -/
structure Agree (s s' : Session) : Prop where
  tree_eq : s.tree = s'.tree
  portrait_eq : s.config.portrait = s'.config.portrait
  node_eq : s.snapshot.node = s'.snapshot.node
  status_eq : s.snapshot.status = s'.snapshot.status
  world : World.AgreeOn (Vocabulary.of s.tree) s.world s'.world

def AddedAlike (s s' s₁ s₁' : Session) : Prop :=
  ∃ lines, s₁.snapshot.transcript = s.snapshot.transcript ++ lines ∧
    s₁'.snapshot.transcript = s'.snapshot.transcript ++ lines

theorem addedAlike_refl (s s' : Session) : AddedAlike s s' s s' :=
  ⟨[], by simp, by simp⟩

theorem AddedAlike.trans {s s' s₁ s₁' s₂ s₂' : Session} (h₁ : AddedAlike s s' s₁ s₁')
    (h₂ : AddedAlike s₁ s₁' s₂ s₂') : AddedAlike s s' s₂ s₂' := by
  obtain ⟨lines, hleft, hright⟩ := h₁
  obtain ⟨more, hleft', hright'⟩ := h₂
  refine ⟨lines ++ more, ?_, ?_⟩
  · rw [hleft', hleft, List.append_assoc]
  · rw [hright', hright, List.append_assoc]

theorem exists_covers_of_mem_choices {s : Session} {c : Choice} (hc : c ∈ s.choices) :
    ∃ n, (Vocabulary.of s.tree).Covers n ∧ c ∈ n.choices := by
  obtain ⟨n, hn, hmem⟩ := mem_choices_iff.1 hc
  exact ⟨n, Tree.covers_of_mem (Tree.mem_values_of_node? hn), hmem⟩

namespace Agree

variable {s s' : Session} {c : Choice}

theorem choices (h : Agree s s') : s.choices = s'.choices := by
  rw [Session.choices, Session.choices, node?, node?, h.tree_eq, h.node_eq]

theorem picked? (h : Agree s s') (op : Op) : s.picked? op = s'.picked? op := by
  cases op <;> simp only [Session.picked?, h.choices]

theorem isAvailable (h : Agree s s') (hc : c ∈ s.choices) :
    s.isAvailable c = s'.isAvailable c := by
  obtain ⟨n, hn, hmem⟩ := exists_covers_of_mem_choices hc
  exact h.world.isOpen (hn.choice hmem).2

theorem offer (h : Agree s s') (hc : c ∈ s.choices) (index : Nat) :
    s.offer index c = s'.offer index c := by
  obtain ⟨n, hn, hmem⟩ := exists_covers_of_mem_choices hc
  have htext := h.world.substitute (hn.choice hmem).1
  have hreason := h.world.lockedReason hn hmem
  simp only [Session.offer, htext, hreason, h.isAvailable hc, h.tree_eq]

theorem offers (h : Agree s s') : s.offers = s'.offers := by
  unfold Session.offers
  rw [h.status_eq]
  cases s'.snapshot.status with
  | ended ending => rfl
  | active =>
      simp only [← h.choices]
      refine List.map_congr_left fun entry hentry => ?_
      exact h.offer (List.fst_mem_of_mem_zipIdx hentry) entry.2

theorem taken {s₁ : Session} {outcome : Outcome} (h : Agree s s') (hc : c ∈ s.choices)
    (htaken : Taken s c outcome s₁) :
    ∃ s₁', Taken s' c outcome s₁' ∧ AddedAlike s s' s₁ s₁' ∧ Agree s₁ s₁' := by
  obtain ⟨n, hn, hmem⟩ := exists_covers_of_mem_choices hc
  have hworld := h.world.effect hn hmem
  have hdestination := hworld.destination hn hmem
  cases htaken with
  | exit hexit =>
      refine ⟨_, .exit hexit, ⟨[], by simp, by simp⟩, ?_⟩
      exact ⟨h.tree_eq, h.portrait_eq, h.node_eq, rfl, hworld⟩
  | lost hexit htarget hlost =>
      rw [h.tree_eq] at hlost
      refine ⟨_, .lost hexit (htarget.trans hdestination) hlost, ⟨[], by simp, by simp⟩, ?_⟩
      exact ⟨h.tree_eq, h.portrait_eq, h.node_eq, rfl, hworld⟩
  | @advanced target next hexit htarget hfound =>
      have hnext := Tree.covers_of_mem
        (Tree.mem_values_of_node? (Tree.target?_eq_some_iff.1 hfound).2)
      have hline := hworld.message hnext s.tree h.portrait_eq (some c.text)
      rw [h.tree_eq] at hfound
      refine ⟨_, .advanced hexit (htarget.trans hdestination) hfound, ⟨[_], rfl, ?_⟩, ?_⟩
      · rw [hline, h.tree_eq]
      · exact ⟨h.tree_eq, h.portrait_eq, rfl, h.status_eq, hworld⟩

theorem takeFound (h : Agree s s') (op : Op) (missing : Refusal) :
    let attempted := s.takeFound (s.picked? op) missing
    let attempted' := s'.takeFound (s'.picked? op) missing
    attempted.1 = attempted'.1 ∧ AddedAlike s s' attempted.2 attempted'.2 ∧
      Agree attempted.2 attempted'.2 := by
  rw [← h.picked? op]
  unfold Session.takeFound
  rw [← h.status_eq]
  cases s.snapshot.status with
  | ended ending => exact ⟨rfl, addedAlike_refl s s', h⟩
  | active =>
      cases hpicked : s.picked? op with
      | none => exact ⟨rfl, addedAlike_refl s s', h⟩
      | some c =>
          have hc := mem_choices_of_picked? hpicked
          have hsame := h.isAvailable hc
          cases hopen : s.isAvailable c with
          | false =>
              simp only [take_of_not_isAvailable hopen,
                take_of_not_isAvailable (hsame.symm.trans hopen)]
              exact ⟨trivial, addedAlike_refl s s', h⟩
          | true =>
              obtain ⟨outcome, s₁, htaken⟩ := exists_taken s c
              obtain ⟨s₁', htaken', halike, hagree⟩ := h.taken hc htaken
              simp only [take_of_taken hopen htaken,
                take_of_taken (hsame.symm.trans hopen) htaken']
              exact ⟨trivial, halike, hagree⟩

theorem respond (h : Agree s s') (request : Request) :
    (s.respond request).1 = (s'.respond request).1 ∧
      AddedAlike s s' (s.respond request).2 (s'.respond request).2 ∧
      Agree (s.respond request).2 (s'.respond request).2 := by
  cases request with
  | offers => exact ⟨congrArg Reply.offered h.offers, addedAlike_refl s s', h⟩
  | apply id =>
      obtain ⟨hresult, halike, hagree⟩ := h.takeFound (.apply id) (.unknownChoice id)
      exact ⟨congrArg (Reply.answered ∘ Answer.of) hresult, halike, hagree⟩
  | choose index =>
      obtain ⟨hresult, halike, hagree⟩ := h.takeFound (.choose index) (.choiceOutOfRange index)
      exact ⟨congrArg (Reply.answered ∘ Answer.of) hresult, halike, hagree⟩

end Agree

/-- The vocabulary of a tree is all that play depends on: two sessions that agree on it reply alike
to whatever a player asks, add the same lines and agree again. -/
theorem converse_agree {s s' : Session} (h : Agree s s') (requests : List Request) :
    (s.converse requests).1 = (s'.converse requests).1 ∧
      AddedAlike s s' (s.converse requests).2 (s'.converse requests).2 ∧
      Agree (s.converse requests).2 (s'.converse requests).2 := by
  induction requests generalizing s s' with
  | nil => exact ⟨rfl, addedAlike_refl s s', h⟩
  | cons request requests ih =>
      obtain ⟨hreply, halike, hagree⟩ := h.respond request
      obtain ⟨hreplies, hmore, hlast⟩ := ih hagree
      refine ⟨?_, halike.trans hmore, hlast⟩
      simp only [converse, hreply, hreplies]

def tollBridge : Tree :=
  (Tree.bare "toll" "bridge").withNode
      ((Node.line "bridge" "Keeper" "You have \x7b$$ gold \x7d coins.").withChoice
          (((Choice.leading "pay" "Pay one of \x7b$$gold\x7d." "far").withAdjustment
              ⟨"gold", 1, some .subtract⟩).withGate
            (Gate.free.onlyIf ⟨"gold", .above, 0⟩))
        |>.withChoice
          ((Choice.leading "ask" "Is there another way?" "bridge").withDetour "far"
            (Gate.free.require "ford")))
    |>.withNode (Node.line "far" "Keeper" "Safe travels.")

/-- Two sessions at the bridge: what one of them remembers besides, the tree never mentions. -/
def tollBridgePair : Session × Session :=
  let world : World := ⟨.none, .ofList [("gold", 1)]⟩
  let world' : World := ⟨.ofList ["rain"], .ofList [("gold", 1), ("luck", 7)]⟩
  let line := Message.of tollBridge .bare (Node.line "bridge" "Keeper" "Again?") world' none
  (resume tollBridge .bare ⟨"bridge", world, [], .active⟩,
    resume tollBridge ⟨.ofList [("luck", 3)], none⟩ ⟨"bridge", world', [line], .active⟩)

theorem converse_agree_at_tollBridge :
    let (s, s') := tollBridgePair
    let requests := [.offers, .choose 1, .apply "pay", .apply "pay", .offers]
    Agree s s' ∧
      (s.converse requests).1 = (s'.converse requests).1 ∧
      AddedAlike s s' (s.converse requests).2 (s'.converse requests).2 ∧
      Agree (s.converse requests).2 (s'.converse requests).2 := by
  have h : Agree tollBridgePair.1 tollBridgePair.2 :=
    ⟨rfl, rfl, rfl, rfl, by decide +kernel, by decide +kernel⟩
  exact ⟨h, converse_agree h _⟩

end Session

end Dialogue
