import Dialogue.Proofs.Play.Step
/-!
# The life of a session

While a session goes on it stands at a node.  Its transcript only grows, by one line for each choice
that leads on, until the session begins again; an end stays an end just as long; and an edit from
outside touches what it names and nothing else.
-/

namespace Dialogue

namespace Session

def Answer.isAdvance : Answer → Bool
  | .taken (.advanced _) => true
  | _ => false

/-- Where the session stands, what has been said and whether it has ended are as before. -/
structure SameConversation (s s' : Session) : Prop where
  node_eq : s'.snapshot.node = s.snapshot.node
  transcript_eq : s'.snapshot.transcript = s.snapshot.transcript
  status_eq : s'.snapshot.status = s.snapshot.status

/-- The transcript has grown by one line for each answer that a choice led on. -/
def Grown (s : Session) (answers : List Answer) (s' : Session) : Prop :=
  ∃ lines, s'.snapshot.transcript = s.snapshot.transcript ++ lines ∧
    lines.length = answers.countP Answer.isAdvance

structure EditsFlag (s : Session) (flag : String) (isSet : Bool) (s' : Session) : Prop where
  frame : s' = { s with snapshot.world.flags := s'.world.flags }
  hasFlag_eq : ∀ other, s'.hasFlag other = if other = flag then isSet else s.hasFlag other

structure EditsCounter (s : Session) (key : String) (value : Int64) (s' : Session) : Prop where
  frame : s' = { s with snapshot.world.counters := s'.world.counters }
  value?_eq : ∀ other, s'.world.counters.value? other =
    if other = key then some value else s.world.counters.value? other

variable {s s' : Session} {op : Op} {answer : Answer}

/-! ## A session that goes on stands at a node -/

theorem node?_start_of_active {t : Tree} {config : Config}
    (h : (start t config).snapshot.status = .active) : ∃ n, (start t config).node? = some n := by
  have hnode : (start t config).node? = t.startNode? := by
    rw [node?, start, Snapshot.node_initial]
    rfl
  rw [hnode]
  cases hstart : t.startNode? with
  | some n => exact ⟨n, rfl⟩
  | none => simp [start, Snapshot.initial, hstart] at h

theorem node?_of_active_performed (h : s.snapshot.status = .active → ∃ n, s.node? = some n)
    (hperformed : Performed s op answer s') (hactive' : s'.snapshot.status = .active) :
    ∃ n, s'.node? = some n := by
  cases hperformed with
  | taken hactive hpicked hopen htaken =>
      cases htaken with
      | exit hexit => cases hactive'
      | lost hexit htarget hlost => cases hactive'
      | @advanced target n hexit htarget hfound =>
          exact ⟨n, (Tree.target?_eq_some_iff.1 hfound).2⟩
  | refused hop refusal => exact h hactive'
  | edited hedit => exact h hactive'
  | reset => exact node?_start_of_active hactive'

theorem node?_of_active_run (t : Tree) (config : Config) (ops : List Op)
    (h : ((start t config).run ops).2.snapshot.status = .active) :
    ∃ n, ((start t config).run ops).2.node? = some n :=
  run_keeps (P := fun s => s.snapshot.status = .active → ∃ n, s.node? = some n)
    node?_of_active_performed node?_start_of_active ops h

/-! ## After the end -/

theorem sameConversation_of_ended {ending : Ending} (hended : s.snapshot.status = .ended ending)
    (hop : op ≠ .reset) (hperformed : Performed s op answer s') : SameConversation s s' := by
  cases hperformed with
  | taken hactive hpicked hopen htaken =>
      rw [hended] at hactive
      cases hactive
  | refused hop refusal => exact ⟨rfl, rfl, rfl⟩
  | edited hedit => exact ⟨rfl, rfl, rfl⟩
  | reset => exact absurd rfl hop

theorem sameConversation_run_of_ended {ending : Ending}
    (hended : s.snapshot.status = .ended ending) {ops : List Op} (hops : .reset ∉ ops) :
    SameConversation s (s.run ops).2 := by
  induction ops generalizing s with
  | nil => exact ⟨rfl, rfl, rfl⟩
  | cons op ops ih =>
      obtain ⟨hop, hrest⟩ := not_or.1 (mt List.mem_cons.2 hops)
      have hfirst := sameConversation_of_ended hended (Ne.symm hop) (perform_spec s op)
      have hlater := ih (hfirst.status_eq.trans hended) hrest
      exact ⟨hlater.node_eq.trans hfirst.node_eq, hlater.transcript_eq.trans hfirst.transcript_eq,
        hlater.status_eq.trans hfirst.status_eq⟩

/-! ## What has been said -/

theorem Op.isAdvance_edit {w w' : World} (h : op.edit? w = some (answer, w')) :
    answer.isAdvance = false := by
  cases op <;> cases h <;> rfl

theorem grown_performed (hop : op ≠ .reset) (hperformed : Performed s op answer s') :
    Grown s [answer] s' := by
  cases hperformed with
  | taken hactive hpicked hopen htaken =>
      cases htaken with
      | exit hexit => exact ⟨[], (List.append_nil _).symm, rfl⟩
      | lost hexit htarget hlost => exact ⟨[], (List.append_nil _).symm, rfl⟩
      | advanced hexit htarget hfound => exact ⟨_, rfl, rfl⟩
  | refused hop refusal => exact ⟨[], (List.append_nil _).symm, rfl⟩
  | edited hedit =>
      refine ⟨[], (List.append_nil _).symm, ?_⟩
      simp [Op.isAdvance_edit hedit]
  | reset => exact absurd rfl hop

theorem Grown.trans {s'' : Session} {answers answers' : List Answer} (h : Grown s answers s')
    (h' : Grown s' answers' s'') : Grown s (answers ++ answers') s'' := by
  obtain ⟨lines, hlines, hlength⟩ := h
  obtain ⟨lines', hlines', hlength'⟩ := h'
  refine ⟨lines ++ lines', ?_, ?_⟩
  · rw [hlines', hlines, List.append_assoc]
  · rw [List.length_append, hlength, hlength', List.countP_append]

theorem grown_run {ops : List Op} (hops : .reset ∉ ops) :
    Grown s (s.run ops).1 (s.run ops).2 := by
  induction ops generalizing s with
  | nil => exact ⟨[], (List.append_nil _).symm, rfl⟩
  | cons op ops ih =>
      obtain ⟨hop, hrest⟩ := not_or.1 (mt List.mem_cons.2 hops)
      exact (grown_performed (Ne.symm hop) (perform_spec s op)).trans (ih hrest)

theorem Grown.isAdvance_iff (h : Grown s [answer] s') :
    answer.isAdvance = true ↔
      ∃ line, s'.snapshot.transcript = s.snapshot.transcript ++ [line] := by
  obtain ⟨lines, hlines, hlength⟩ := h
  rw [hlines]
  cases hadvance : answer.isAdvance with
  | true =>
      simp only [List.countP_singleton, hadvance, if_true] at hlength
      obtain ⟨line, rfl⟩ := List.length_eq_one_iff.1 hlength
      simp
  | false =>
      simp only [List.countP_singleton, hadvance, Bool.false_eq_true, if_false] at hlength
      simp [List.length_eq_zero_iff.1 hlength]

theorem Grown.not_isAdvance_iff (h : Grown s [answer] s') :
    answer.isAdvance = false ↔ s'.snapshot.transcript = s.snapshot.transcript := by
  obtain ⟨lines, hlines, hlength⟩ := h
  rw [hlines, List.append_right_eq_self, ← List.length_eq_zero_iff, hlength]
  cases hadvance : answer.isAdvance <;> simp [hadvance]

/-! ## Edits from outside -/

theorem editsFlag_setFlag (s : Session) (flag : String) :
    EditsFlag s flag true (s.setFlag flag) where
  frame := rfl
  hasFlag_eq other := by
    rw [hasFlag, setFlag, hasFlag, world, Flags.contains_set]
    by_cases h : other = flag <;> simp [h, world]

theorem editsFlag_clearFlag (s : Session) (flag : String) :
    EditsFlag s flag false (s.clearFlag flag) where
  frame := rfl
  hasFlag_eq other := by
    rw [hasFlag, clearFlag, hasFlag, world, Flags.contains_clear]
    by_cases h : other = flag <;> simp [h, world]

theorem editsFlag_toggleFlag (s : Session) (flag : String) :
    EditsFlag s flag (!s.hasFlag flag) (s.toggleFlag flag) where
  frame := rfl
  hasFlag_eq other := Flags.contains_toggle s.world.flags flag other

theorem editsCounter_setCounter (s : Session) (key : String) (value : Int64) :
    EditsCounter s key value (s.setCounter key value) where
  frame := rfl
  value?_eq other := Counters.value?_set s.world.counters key other value

/-! ## The whole life -/

/-- What a session does in its life, in every run.  It stands at a node while it goes on.  Once it
has ended, only a reset changes where it stands, what has been said and how it ended.  Until a reset
the transcript keeps its lines and gains one for each answer that a choice led on, and none for any
other.  An edit from outside changes the flag or the counter that it names and nothing else, and a
reset leads back to the very beginning. -/
theorem life_cycle (t : Tree) (config : Config) (ops : List Op) :
    let s := ((start t config).run ops).2
    (s.snapshot.status = .active → ∃ n, s.node? = some n) ∧
      (∀ ending, s.snapshot.status = .ended ending →
        ∀ more, .reset ∉ more → SameConversation s (s.run more).2) ∧
      ((∀ more, .reset ∉ more → Grown s (s.run more).1 (s.run more).2) ∧
        ∀ op, op ≠ .reset →
          ((s.perform op).1.isAdvance = true ↔ ∃ line,
            (s.perform op).2.snapshot.transcript = s.snapshot.transcript ++ [line]) ∧
          ((s.perform op).1.isAdvance = false ↔
            (s.perform op).2.snapshot.transcript = s.snapshot.transcript)) ∧
      ((∀ flag, EditsFlag s flag true (s.perform (.setFlag flag)).2 ∧
          EditsFlag s flag false (s.perform (.clearFlag flag)).2 ∧
          EditsFlag s flag (!s.hasFlag flag) (s.perform (.toggleFlag flag)).2) ∧
        ∀ key value, EditsCounter s key value (s.perform (.setCounter key value)).2) ∧
      (s.perform .reset).2 = start t config := by
  intro s
  obtain ⟨htree, hconfig⟩ := frame_run (start t config) ops
  refine ⟨node?_of_active_run t config ops,
    fun ending hended more => sameConversation_run_of_ended hended,
    ⟨fun more => grown_run, fun op hop => ?_⟩, ⟨fun flag => ?_, editsCounter_setCounter s⟩, ?_⟩
  · have hgrown := grown_performed hop (perform_spec s op)
    exact ⟨hgrown.isAdvance_iff, hgrown.not_isAdvance_iff⟩
  · exact ⟨editsFlag_setFlag s flag, editsFlag_clearFlag s flag, editsFlag_toggleFlag s flag⟩
  · show start s.tree s.config = start t config
    rw [htree, hconfig]
    rfl

end Session

end Dialogue
