import Dialogue.Proofs.Story.Targets
/-!
# What one operation does

`perform_spec` says once and for all what an operation on a session can come to: a choice is taken,
nothing changes, the state of the story is edited from outside, or the session begins again.  What
sessions keep over runs is derived from these cases and from `run_invariant`.
-/

namespace Dialogue

namespace Snapshot

@[simp] theorem node_initial (t : Tree) (config : Session.Config) :
    (initial t config).node = t.start := by
  unfold initial
  cases t.startNode? <;> rfl

@[simp] theorem world_initial (t : Tree) (config : Session.Config) :
    (initial t config).world = ⟨.none, config.counters⟩ := by
  unfold initial
  cases t.startNode? <;> rfl

theorem status_initial_of_isPlayable {t : Tree} (config : Session.Config)
    (h : t.isPlayable = true) : (initial t config).status = .active := by
  obtain ⟨-, n, hn⟩ := Tree.hasNode_iff.1 h
  unfold initial Tree.startNode?
  rw [hn]

theorem exists_of_mem_transcript_initial {t : Tree} {config : Session.Config} {line : Message}
    (h : line ∈ (initial t config).transcript) :
    ∃ n, t.startNode? = some n ∧ line = Message.of t config n ⟨.none, config.counters⟩ none := by
  unfold initial at h
  cases hn : t.startNode? with
  | none =>
      rw [hn] at h
      exact absurd h List.not_mem_nil
  | some n =>
      rw [hn] at h
      exact ⟨n, rfl, List.mem_singleton.1 h⟩

end Snapshot

namespace Session

def picked? (s : Session) : Op → Option Choice
  | .apply id => s.choices.find? fun c => c.id = id
  | .choose index => s.choices[index]?
  | _ => none

/-- What an edit from outside answers and makes of the state of the story. -/
def Op.edit? (w : World) : Op → Option (Answer × World)
  | .setFlag flag => some (.done, { w with flags := w.flags.set flag })
  | .clearFlag flag => some (.done, { w with flags := w.flags.clear flag })
  | .toggleFlag flag =>
      some (.toggled ((w.flags.toggle flag).contains flag),
        { w with flags := w.flags.toggle flag })
  | .setCounter key value => some (.done, { w with counters := w.counters.set key value })
  | _ => none

inductive Taken (s : Session) (c : Choice) : Outcome → Session → Prop where
  | exit {status : String} (hexit : c.exitStatus = some status) :
      Taken s c (.ended (.exit status))
        { s with
          snapshot.world := c.effect s.world
          snapshot.status := .ended (.exit status) }
  | lost {target : String} (hexit : c.exitStatus = none)
      (htarget : target = c.destination (c.effect s.world))
      (hlost : s.tree.target? target = none) :
      Taken s c (.ended (.missingTarget target))
        { s with
          snapshot.world := c.effect s.world
          snapshot.status := .ended (.missingTarget target) }
  | advanced {target : String} {n : Node} (hexit : c.exitStatus = none)
      (htarget : target = c.destination (c.effect s.world))
      (hfound : s.tree.target? target = some n) :
      Taken s c (.advanced target)
        { s with
          snapshot.world := c.effect s.world
          snapshot.node := target
          snapshot.transcript := s.snapshot.transcript ++
            [Message.of s.tree s.config n (c.effect s.world) (some c.text)] }

inductive Performed (s : Session) : Op → Answer → Session → Prop where
  | taken {op : Op} {c : Choice} {outcome : Outcome} {s' : Session}
      (hactive : s.snapshot.status = .active) (hpicked : s.picked? op = some c)
      (hopen : s.isAvailable c = true) (htaken : Taken s c outcome s') :
      Performed s op (.taken outcome) s'
  | refused {op : Op} (hop : op ≠ .reset) (refusal : Refusal) :
      Performed s op (.refused refusal) s
  | edited {op : Op} {answer : Answer} {w : World}
      (hedit : op.edit? s.world = some (answer, w)) :
      Performed s op answer { s with snapshot.world := w }
  | reset : Performed s .reset .done (start s.tree s.config)

theorem mem_choices_iff {s : Session} {c : Choice} :
    c ∈ s.choices ↔ ∃ n, s.node? = some n ∧ c ∈ n.choices := by
  unfold choices
  cases s.node? <;> simp

theorem exists_choice_of_mem_offers {s : Session} {offer : Offer} (h : offer ∈ s.offers) :
    ∃ index, ∃ c ∈ s.choices, offer = s.offer index c := by
  unfold offers at h
  cases hstatus : s.snapshot.status with
  | ended ending =>
      rw [hstatus] at h
      exact absurd h List.not_mem_nil
  | active =>
      rw [hstatus] at h
      obtain ⟨entry, hentry, rfl⟩ := List.mem_map.1 h
      exact ⟨entry.2, entry.1, List.fst_mem_of_mem_zipIdx hentry, rfl⟩

theorem mem_choices_of_picked? {s : Session} {op : Op} {c : Choice}
    (h : s.picked? op = some c) : c ∈ s.choices := by
  cases op with
  | apply id => exact List.mem_of_find?_eq_some h
  | choose index => exact List.mem_of_getElem? h
  | _ => cases h

theorem exists_taken (s : Session) (c : Choice) : ∃ outcome s', Taken s c outcome s' := by
  cases hexit : c.exitStatus with
  | some status => exact ⟨_, _, .exit hexit⟩
  | none =>
      cases hfound : s.tree.target? (c.destination (c.effect s.world)) with
      | none => exact ⟨_, _, .lost hexit rfl hfound⟩
      | some n => exact ⟨_, _, .advanced hexit rfl hfound⟩

theorem take_of_taken {s s' : Session} {c : Choice} {outcome : Outcome}
    (hopen : s.isAvailable c = true) (h : Taken s c outcome s') :
    s.take c = (.ok outcome, s') := by
  unfold take
  rw [if_pos hopen]
  cases h with
  | exit hexit => simp only [hexit, close]
  | lost hexit htarget hlost =>
      subst htarget
      simp only [world] at hlost
      simp only [hexit, goTo, close, world, hlost]
  | advanced hexit htarget hfound =>
      subst htarget
      simp only [world] at hfound
      simp only [hexit, goTo, world, hfound]

theorem take_of_not_isAvailable {s : Session} {c : Choice} (hopen : s.isAvailable c = false) :
    s.take c = (.error (.choiceLocked c.id), s) := by
  simp only [take, hopen, Bool.false_eq_true, if_false]

theorem performed_takeFound {s : Session} {op : Op} (hop : op ≠ .reset) (missing : Refusal) :
    let attempted := s.takeFound (s.picked? op) missing
    Performed s op (.of attempted.1) attempted.2 := by
  unfold takeFound
  cases hstatus : s.snapshot.status with
  | ended ending => exact .refused hop (.ended ending)
  | active =>
      cases hpicked : s.picked? op with
      | none => exact .refused hop missing
      | some c =>
          cases hopen : s.isAvailable c with
          | false =>
              simp only [take_of_not_isAvailable hopen]
              exact .refused hop (.choiceLocked c.id)
          | true =>
              obtain ⟨outcome, s', htaken⟩ := exists_taken s c
              simp only [take_of_taken hopen htaken]
              exact .taken hstatus hpicked hopen htaken

/-- An operation does one of four things. -/
theorem perform_spec (s : Session) (op : Op) :
    Performed s op (s.perform op).1 (s.perform op).2 := by
  cases op with
  | apply id => exact performed_takeFound (by simp) (.unknownChoice id)
  | choose index => exact performed_takeFound (by simp) (.choiceOutOfRange index)
  | setFlag flag => exact .edited rfl
  | clearFlag flag => exact .edited rfl
  | toggleFlag flag => exact .edited rfl
  | setCounter key value => exact .edited rfl
  | reset => exact .reset

/-- What every operation keeps, every run keeps, and what every operation answers, every run
answers. -/
theorem run_invariant {P : Session → Prop} (Q : Answer → Prop)
    (hstep : ∀ {s op answer s'}, P s → Performed s op answer s' → Q answer ∧ P s')
    {s : Session} (h : P s) (ops : List Op) :
    (∀ answer ∈ (s.run ops).1, Q answer) ∧ P (s.run ops).2 := by
  induction ops generalizing s with
  | nil => exact ⟨by simp [run], h⟩
  | cons op ops ih =>
      obtain ⟨hanswer, hnext⟩ := hstep h (perform_spec s op)
      obtain ⟨hanswers, hlast⟩ := ih hnext
      refine ⟨fun answer hmem => ?_, hlast⟩
      rcases List.mem_cons.1 hmem with rfl | hmem
      · exact hanswer
      · exact hanswers answer hmem

theorem run_keeps {P : Session → Prop}
    (hstep : ∀ {s op answer s'}, P s → Performed s op answer s' → P s')
    {s : Session} (h : P s) (ops : List Op) : P (s.run ops).2 :=
  (run_invariant (fun _ => True) (fun hs hperformed => ⟨trivial, hstep hs hperformed⟩) h ops).2

theorem run_keeps_within {P : Session → Prop} {Allowed : Op → Prop}
    (hstep : ∀ {s op answer s'}, Allowed op → P s → Performed s op answer s' → P s')
    {s : Session} (h : P s) {ops : List Op} (hops : ∀ op ∈ ops, Allowed op) : P (s.run ops).2 := by
  induction ops generalizing s with
  | nil => exact h
  | cons op ops ih =>
      obtain ⟨hop, hrest⟩ := List.forall_mem_cons.1 hops
      exact ih (hstep hop h (perform_spec s op)) hrest

/-- No operation touches the tree or the configuration. -/
theorem frame_performed {s s' : Session} {op : Op} {answer : Answer}
    (h : Performed s op answer s') : s'.tree = s.tree ∧ s'.config = s.config := by
  cases h with
  | taken hactive hpicked hopen htaken => cases htaken <;> exact ⟨rfl, rfl⟩
  | refused hop refusal => exact ⟨rfl, rfl⟩
  | edited hedit => exact ⟨rfl, rfl⟩
  | reset => exact ⟨rfl, rfl⟩

theorem frame_run (s : Session) (ops : List Op) :
    (s.run ops).2.tree = s.tree ∧ (s.run ops).2.config = s.config :=
  run_keeps (P := fun s' => s'.tree = s.tree ∧ s'.config = s.config)
    (fun hkept hperformed =>
      have hframe := frame_performed hperformed
      ⟨hframe.1.trans hkept.1, hframe.2.trans hkept.2⟩)
    ⟨rfl, rfl⟩ ops

/-- A run in two parts: the second part starts where the first one ended. -/
theorem run_append (s : Session) (before later : List Op) :
    s.run (before ++ later) =
      ((s.run before).1 ++ ((s.run before).2.run later).1, ((s.run before).2.run later).2) := by
  induction before generalizing s with
  | nil => rfl
  | cons op before ih => simp only [List.cons_append, run, ih]

end Session

end Dialogue
