import Dialogue.Play.Walk
import Dialogue.Proofs.Play.Selection
import Dialogue.Proofs.Review.Mention
import Mathlib
/-!
# What a walk covers

A walk takes available choices only, so none of them is refused (`go_induction`), and it visits the
node where the session stands and those to which a choice leads.  If the tree has its start, all of
these are nodes of the tree, and the nodes visited and the nodes not visited are those of the tree.
If it has not, the session stands nowhere, and the walk counts a visit to a node that does not
exist.
-/

namespace Dialogue

namespace Session

/-- The session plays this tree and stands at one of its nodes, even after the end. -/
def StandsIn (t : Tree) (s : Session) : Prop := s.tree = t ∧ s.snapshot.node ∈ t.nodes.keys

/-- The session plays this tree, but it never began, for there is no node to begin at. -/
def Unbegun (t : Tree) (s : Session) : Prop :=
  s.tree = t ∧ s.snapshot.node = t.start ∧ s.snapshot.status = .ended (.missingTarget t.start)

variable {t : Tree} {s s' : Session}

theorem standsIn_start {n : Node} (h : t.startNode? = some n) (config : Config) :
    StandsIn t (start t config) := by
  refine ⟨rfl, ?_⟩
  rw [start, Snapshot.node_initial]
  exact Tree.mem_keys_of_node? h

theorem standsIn_taken {c : Choice} {outcome : Outcome} (h : StandsIn t s)
    (htaken : Taken s c outcome s') :
    StandsIn t s' ∧ ∀ node, outcome = .advanced node → node ∈ t.nodes.keys := by
  obtain ⟨rfl, hnode⟩ := h
  cases htaken with
  | exit hexit => exact ⟨⟨rfl, hnode⟩, by simp⟩
  | lost hexit htarget hlost => exact ⟨⟨rfl, hnode⟩, by simp⟩
  | @advanced target n hexit htarget hfound =>
      have hmem : target ∈ s.tree.nodes.keys :=
        Tree.mem_keys_of_node? (Tree.target?_eq_some_iff.1 hfound).2
      refine ⟨⟨rfl, hmem⟩, fun node heq => ?_⟩
      cases heq
      exact hmem

theorem standsIn_run {n : Node} (h : t.startNode? = some n) (config : Config) (ops : List Op) :
    StandsIn t ((start t config).run ops).2 := by
  refine run_keeps (fun {s op answer s'} hs hperformed => ?_) (standsIn_start h config) ops
  cases hperformed with
  | taken hactive hpicked hopen htaken => exact (standsIn_taken hs htaken).1
  | refused hop refusal => exact hs
  | edited hedit => exact hs
  | reset =>
      rw [hs.1]
      exact standsIn_start h s.config

theorem unbegun_start (h : t.startNode? = none) (config : Config) : Unbegun t (start t config) := by
  simp [Unbegun, start, Snapshot.initial, h]

theorem unbegun_run (h : t.startNode? = none) (config : Config) (ops : List Op) :
    Unbegun t ((start t config).run ops).2 := by
  refine run_keeps (fun {s op answer s'} hs hperformed => ?_) (unbegun_start h config) ops
  cases hperformed with
  | taken hactive hpicked hopen htaken =>
      rw [hs.2.2] at hactive
      cases hactive
  | refused hop refusal => exact hs
  | edited hedit => exact hs
  | reset =>
      rw [hs.1]
      exact unbegun_start h s.config

end Session

namespace Walk

open Session

variable {t : Tree} {w : Walk}

/-! ## One choice after the other -/

theorem exists_choose_of_mem_available {s : Session} {index : Nat} (h : index ∈ available s) :
    ∃ c outcome s', s.choose index = (.ok outcome, s') ∧ Taken s c outcome s' := by
  obtain ⟨offer, hoffer, rfl⟩ := List.mem_map.1 h
  obtain ⟨hmem, havailable⟩ := List.mem_filter.1 hoffer
  obtain ⟨outcome, s', htaken⟩ := exists_taken s offer.choice
  have hopen : s.isAvailable offer.choice = true := available_of_mem_offers hmem ▸ havailable
  refine ⟨offer.choice, outcome, s', ?_, htaken⟩
  rw [choose, takeFound_of_active (active_of_mem_offers hmem), getElem?_choices_of_mem_offers hmem]
  exact take_of_taken hopen htaken

/-- A walk stays where it is, finds nothing to take, or takes a choice and goes on.  It is never
refused. -/
theorem go_induction {motive : Nat → Walk → Walk → Prop}
    (stay : ∀ steps w, motive steps w w)
    (stuck : ∀ steps w, motive (steps + 1) w (w.note (.stuck w.session.snapshot.node)))
    (onward : ∀ {steps w w' c outcome s'}, Taken w.session c outcome s' →
      motive steps (w.after outcome s') w' → motive (steps + 1) w w')
    (picks : Nat → Nat) (steps : Nat) (w : Walk) : motive steps w (go picks steps w) := by
  induction steps generalizing w with
  | zero => exact stay 0 w
  | succ steps ih =>
      unfold go
      cases w.session.snapshot.status with
      | ended ending => exact stay (steps + 1) w
      | active =>
          cases hpicked : picked? (available w.session) (picks w.taken) with
          | none => exact stuck steps w
          | some index =>
              have hindex : index ∈ available w.session := List.mem_of_getElem? hpicked
              obtain ⟨c, outcome, s', hchoose, htaken⟩ := exists_choose_of_mem_available hindex
              simp only [hchoose]
              exact onward htaken (ih (w.after outcome s'))

theorem taken_go_le (picks : Nat → Nat) (steps : Nat) (w : Walk) :
    (go picks steps w).taken ≤ w.taken + steps := by
  refine go_induction (motive := fun steps w w' => w'.taken ≤ w.taken + steps)
    (fun steps w => Nat.le_add_right _ _) (fun steps w => Nat.le_add_right _ _) ?_ picks steps w
  intro steps w w' c outcome s' _ ih
  have hafter : (w.after outcome s').taken = w.taken + 1 := by cases outcome <;> rfl
  omega

theorem refused_notMem_go (refusal : Refusal) (picks : Nat → Nat) (steps : Nat) {w : Walk}
    (h : .refused refusal ∉ w.events) : .refused refusal ∉ (go picks steps w).events := by
  refine go_induction
    (motive := fun _ w w' => .refused refusal ∉ w.events → .refused refusal ∉ w'.events)
    (fun steps w h => h) (fun steps w h => by simpa [note] using h) ?_ picks steps w h
  intro steps w w' c outcome s' _ ih h
  refine ih ?_
  cases outcome <;> simpa [after, note] using h

/-! ## What is visited -/

structure Within (t : Tree) (w : Walk) : Prop where
  standsIn : w.session.StandsIn t
  visited_mem : ∀ id ∈ w.visited.keys, id ∈ t.nodes.keys

theorem mem_keys_insert {visited : SortedMap Unit} {id key : String} :
    key ∈ (visited.insert id ()).keys ↔ key = id ∨ key ∈ visited.keys := by
  rw [SortedMap.mem_keys_iff, SortedMap.mem_keys_iff, SortedMap.get?_insert]
  split <;> simp_all

theorem within_start {s : Session} (h : s.StandsIn t) : Within t (start s) where
  standsIn := h
  visited_mem := by
    intro id hid
    rcases mem_keys_insert.1 hid with rfl | hid
    · exact h.2
    · exact absurd hid List.not_mem_nil

theorem Within.after {c : Choice} {outcome : Outcome} {s' : Session} (h : Within t w)
    (htaken : Taken w.session c outcome s') : Within t (w.after outcome s') := by
  obtain ⟨hstands, hadvanced⟩ := standsIn_taken h.standsIn htaken
  cases outcome with
  | ended ending => exact ⟨hstands, h.visited_mem⟩
  | advanced node =>
      refine ⟨hstands, fun id hid => ?_⟩
      rcases mem_keys_insert.1 hid with rfl | hid
      · exact hadvanced _ rfl
      · exact h.visited_mem id hid

theorem Within.go (h : Within t w) (picks : Nat → Nat) (steps : Nat) :
    Within t (Walk.go picks steps w) :=
  go_induction (motive := fun _ w w' => Within t w → Within t w')
    (fun _ _ h => h) (fun _ _ h => ⟨h.standsIn, h.visited_mem⟩)
    (fun htaken ih h => ih (h.after htaken)) picks steps w h

theorem perm_unvisited (w : Walk) :
    w.unvisited.Perm (w.session.tree.nodes.keys.filter fun id => !w.visited.contains id) := by
  refine (List.perm_ext_iff_of_nodup (SortedMap.nodup_keys _)
    (w.session.tree.nodes.nodup.filter _)).2 fun id => ?_
  exact Vocabulary.mem_sorted_iff

/-- What has been visited and what has not are together the nodes of the tree. -/
theorem Within.perm (h : Within t w) : (w.visited.keys ++ w.unvisited).Perm t.nodes.keys := by
  obtain ⟨⟨rfl, -⟩, hvisited⟩ := h
  have hcontains : ∀ id, w.visited.contains id = true ↔ id ∈ w.visited.keys :=
    fun id => SortedMap.mem_keys_iff.symm
  have hmem : ∀ id, id ∈ w.unvisited ↔ id ∈ w.session.tree.nodes.keys ∧ id ∉ w.visited.keys := by
    intro id
    rw [w.perm_unvisited.mem_iff, List.mem_filter, Bool.not_eq_true', ← Bool.not_eq_true,
      hcontains]
  have hnodup : (w.visited.keys ++ w.unvisited).Nodup :=
    List.nodup_append'.2 ⟨SortedMap.nodup_keys _, SortedMap.nodup_keys _,
      fun id hid hnot => ((hmem id).1 hnot).2 hid⟩
  refine (List.perm_ext_iff_of_nodup hnodup w.session.tree.nodes.nodup).2 fun id => ?_
  rw [List.mem_append, hmem]
  constructor
  · rintro (hid | hid)
    · exact hvisited id hid
    · exact hid.1
  · intro hid
    by_cases hv : id ∈ w.visited.keys
    · exact .inl hv
    · exact .inr ⟨hid, hv⟩

/-! ## How much of the tree -/

theorem go_of_ended {ending : Ending} (h : w.session.snapshot.status = .ended ending)
    (picks : Nat → Nat) (steps : Nat) : go picks steps w = w := by
  cases steps with
  | zero => rfl
  | succ steps => simp only [go, h]

/-- A walk of a session that never began visits a node that the tree does not have, and no other. -/
theorem of_unbegun {s : Session} (h : s.Unbegun t) (hstart : t.startNode? = none)
    (picks : Nat → Nat) (steps : Nat) :
    (Walk.of picks steps s).visited.keys = [t.start] ∧
      (Walk.of picks steps s).unvisited.Perm t.nodes.keys := by
  obtain ⟨rfl, hnode, hstatus⟩ := h
  have hwalk : Walk.of picks steps s = start s := go_of_ended hstatus picks steps
  have hvisited : ∀ id, (start s).visited.contains id = true → id = s.tree.start := by
    intro id hid
    rcases mem_keys_insert.1 (SortedMap.mem_keys_iff.2 hid) with heq | hmem
    · rw [heq, hnode]
    · exact absurd hmem List.not_mem_nil
  have hunvisited : (start s).session.tree.nodes.keys.filter
      (fun id => !(start s).visited.contains id) = s.tree.nodes.keys := by
    refine List.filter_eq_self.2 fun id hid => ?_
    rw [Bool.not_eq_true', ← Bool.not_eq_true]
    intro hcontains
    obtain ⟨n, hn⟩ := Tree.exists_node?_of_mem_keys hid
    rw [hvisited id hcontains] at hn
    exact absurd (hn.symm.trans hstart) (by simp)
  rw [hwalk]
  refine ⟨?_, hunvisited ▸ perm_unvisited (start s)⟩
  rw [← hnode]
  rfl

/-- A walk takes no more choices than it may and is refused none.  It adds up, in that the nodes
visited and those listed as not visited are as many as the nodes of the tree, exactly if the tree
has the node that it starts at; then they are the very nodes of the tree.  Otherwise all nodes are
listed as not visited, and the start is counted as visited besides. -/
theorem adds_up_iff (t : Tree) (setup : Session.Setup) (ops : List Session.Op)
    (picks : Nat → Nat) (steps : Nat) :
    let w := Walk.of picks steps ((Session.start t (setup.config t)).run ops).2
    (∀ refusal, .refused refusal ∉ w.events) ∧ w.taken ≤ steps ∧
      (w.visited.size + w.unvisited.length = t.nodes.size ↔ ∃ n, t.startNode? = some n) ∧
      ((∃ n, t.startNode? = some n) →
        (w.visited.keys ++ w.unvisited).Perm t.nodes.keys ∧ w.visited.size ≤ t.nodes.size) ∧
      (t.startNode? = none →
        w.visited.keys = [t.start] ∧ w.unvisited.Perm t.nodes.keys) := by
  intro w
  have hbegun : ∀ n, t.startNode? = some n →
      (w.visited.keys ++ w.unvisited).Perm t.nodes.keys := fun n hn =>
    ((within_start (standsIn_run hn (setup.config t) ops)).go picks steps).perm
  have hunbegun : t.startNode? = none →
      w.visited.keys = [t.start] ∧ w.unvisited.Perm t.nodes.keys := fun hnone =>
    of_unbegun (unbegun_run hnone (setup.config t) ops) hnone picks steps
  have hsum : w.visited.size + w.unvisited.length = (w.visited.keys ++ w.unvisited).length := by
    rw [List.length_append, SortedMap.keys, List.length_map]
    rfl
  have hsize : t.nodes.size = t.nodes.keys.length := (List.length_map _).symm
  have hright : ∀ n, t.startNode? = some n →
      w.visited.size + w.unvisited.length = t.nodes.size := by
    intro n hn
    rw [hsum, hsize, (hbegun n hn).length_eq]
  refine ⟨fun refusal => refused_notMem_go refusal picks steps List.not_mem_nil, ?_, ?_, ?_,
    hunbegun⟩
  · exact (taken_go_le picks steps (start _)).trans (Nat.zero_add steps).le
  · cases hstart : t.startNode? with
    | some n => exact iff_of_true (hright n hstart) ⟨n, rfl⟩
    | none =>
        obtain ⟨hvisited, hperm⟩ := hunbegun hstart
        refine iff_of_false ?_ (by simp)
        rw [hsum, hsize, hvisited, List.length_append, List.length_singleton, hperm.length_eq]
        omega
  · rintro ⟨n, hn⟩
    exact ⟨hbegun n hn, Nat.le.intro (hright n hn)⟩

def unwritten : Tree := Tree.bare "unwritten" "cover"

/-- Whatever is picked, a walk through it has visited one node of none. -/
theorem not_adds_up_unwritten :
    unwritten.nodes.size = 0 ∧ ∀ picks : Nat → Nat,
      let w := Walk.of picks 3 ((Session.start unwritten
        (Session.Setup.config ⟨[], false, none⟩ unwritten)).run []).2
      w.visited.size = 1 ∧ w.unvisited.length = 0 ∧
        w.visited.size + w.unvisited.length ≠ unwritten.nodes.size ∧
        ¬ w.visited.size ≤ unwritten.nodes.size := by
  refine ⟨rfl, fun picks => ?_⟩
  -- the session has ended, so that no pick is asked for
  have hwalk := go_of_ended (w := start (Session.start unwritten
    (Session.Setup.config ⟨[], false, none⟩ unwritten))) rfl picks 3
  rw [Session.run, Walk.of, hwalk]
  decide +kernel

end Walk

end Dialogue
