import Dialogue.Proofs.Play.Step
/-!
# What is offered is what can be taken

The list of offers, the attempt to take a choice and the reason that is given for a lock are three
functions of their own.  `offers_decide` says that they agree in every session, those included that
were taken up at a snapshot to which no play leads.
-/

namespace Dialogue

/-- The reasons tell of flags what is not the case, and of counters that the gate asks for them at
all.  So a gate without a reason asks for nothing that is not the case. -/
theorem Gate.isOpen_of_reasons_eq_nil {g : Gate} {w : World} (h : g.reasons w.flags = []) :
    g.isOpen w = true := by
  obtain ⟨hflags, hcounters⟩ := List.append_eq_nil_iff.1 h
  obtain ⟨hrequired, hblocked⟩ := List.append_eq_nil_iff.1 hflags
  have hall : g.requiredFlags.all w.flags.contains = true := by
    cases heq : g.requiredFlags.all w.flags.contains with
    | true => rfl
    | false => simp [heq] at hrequired
  have hany : g.blockedFlags.any w.flags.contains = false := by
    cases heq : g.blockedFlags.any w.flags.contains with
    | true => simp [heq] at hblocked
    | false => rfl
  have hnone : g.counterConditions = [] := by
    cases heq : g.counterConditions with
    | nil => rfl
    | cons condition rest => simp [heq] at hcounters
  rw [isOpen, hall, hany, hnone]
  rfl

theorem Choice.lockedReason_ne_none {c : Choice} {w : World} (h : isOpen c.gate w = false) :
    c.lockedReason w.flags ≠ none := by
  unfold lockedReason
  cases hgate : c.gate with
  | none =>
      rw [hgate] at h
      cases h
  | some g =>
      have hclosed : g.isOpen w = false := by
        rw [hgate] at h
        exact h
      cases hreasons : g.reasons w.flags with
      | nil =>
          rw [Gate.isOpen_of_reasons_eq_nil hreasons] at hclosed
          cases hclosed
      | cons reason reasons => simp [hreasons]

namespace Session

variable {s : Session}

/-! ## Attempts -/

theorem exists_take_iff {c : Choice} :
    (∃ outcome, (s.take c).1 = .ok outcome) ↔ s.isAvailable c = true := by
  cases hopen : s.isAvailable c with
  | false => simp [take_of_not_isAvailable hopen]
  | true =>
      obtain ⟨outcome, s', htaken⟩ := exists_taken s c
      simp [take_of_taken hopen htaken]

theorem take_eq_error_iff {c : Choice} {refusal : Refusal} :
    (s.take c).1 = .error refusal ↔ s.isAvailable c = false ∧ refusal = .choiceLocked c.id := by
  cases hopen : s.isAvailable c with
  | false => simp [take_of_not_isAvailable hopen, eq_comm]
  | true =>
      obtain ⟨outcome, s', htaken⟩ := exists_taken s c
      simp [take_of_taken hopen htaken]

theorem takeFound_of_ended {ending : Ending} (h : s.snapshot.status = .ended ending)
    (found : Option Choice) (missing : Refusal) :
    s.takeFound found missing = (.error (.ended ending), s) := by
  simp only [takeFound, h]

theorem takeFound_of_active (h : s.snapshot.status = .active) (found : Option Choice)
    (missing : Refusal) :
    s.takeFound found missing = found.elim (.error missing, s) s.take := by
  simp only [takeFound, h]
  cases found <;> rfl

/-! ## Refusals -/

/-- A choice is refused before anything of it is done. -/
theorem take_of_refused {c : Choice} {refusal : Refusal} (h : (s.take c).1 = .error refusal) :
    (s.take c).2 = s := by
  rw [take_of_not_isAvailable (take_eq_error_iff.1 h).1]

theorem takeFound_of_refused {found : Option Choice} {missing refusal : Refusal}
    (h : (s.takeFound found missing).1 = .error refusal) :
    (s.takeFound found missing).2 = s := by
  cases hstatus : s.snapshot.status with
  | ended ending => rw [takeFound_of_ended hstatus]
  | active =>
      rw [takeFound_of_active hstatus] at h ⊢
      cases found with
      | none => rfl
      | some c => exact take_of_refused h

theorem Answer.of_eq_refused_iff {result : Except Refusal Outcome} {refusal : Refusal} :
    Answer.of result = .refused refusal ↔ result = .error refusal := by
  cases result <;> simp [Answer.of]

theorem perform_of_refused {op : Op} {refusal : Refusal}
    (h : (s.perform op).1 = .refused refusal) : (s.perform op).2 = s := by
  cases op with
  | apply id => exact takeFound_of_refused (Answer.of_eq_refused_iff.1 h)
  | choose index => exact takeFound_of_refused (Answer.of_eq_refused_iff.1 h)
  | _ => cases h

/-! ## Offers -/

theorem offers_of_ended {ending : Ending} (h : s.snapshot.status = .ended ending) :
    s.offers = [] := by
  simp only [offers, h]

/-- While the conversation goes on, the choices of the current node are offered in their order. -/
theorem getElem?_offers (h : s.snapshot.status = .active) (index : Nat) :
    s.offers[index]? = s.choices[index]?.map (s.offer index) := by
  simp only [offers, h, List.getElem?_map, List.getElem?_zipIdx, Option.map_map, Nat.zero_add]
  rfl

theorem length_offers (h : s.snapshot.status = .active) : s.offers.length = s.choices.length := by
  simp only [offers, h, List.length_map, List.length_zipIdx]

theorem lockedReason_offer_eq_none_iff {index : Nat} {c : Choice} :
    (s.offer index c).lockedReason = none ↔ (s.offer index c).available = true := by
  simp only [offer]
  cases hopen : s.isAvailable c with
  | true => simp
  | false => simpa using Choice.lockedReason_ne_none hopen

theorem mem_offers_iff (h : s.snapshot.status = .active) {offer : Offer} :
    offer ∈ s.offers ↔ ∃ index c, s.choices[index]? = some c ∧ s.offer index c = offer := by
  simp only [List.mem_iff_getElem?, getElem?_offers h, Option.map_eq_some_iff]

/-! ## Offers and attempts -/

theorem exists_choose_iff {index : Nat} :
    (∃ outcome, (s.choose index).1 = .ok outcome) ↔
      ∃ offer, s.offers[index]? = some offer ∧ offer.available = true := by
  unfold choose
  cases hstatus : s.snapshot.status with
  | ended ending => simp [takeFound_of_ended hstatus, offers_of_ended hstatus]
  | active =>
      rw [takeFound_of_active hstatus, getElem?_offers hstatus]
      cases s.choices[index]? with
      | none => simp
      | some c => simpa [offer] using exists_take_iff

theorem choose_eq_choiceLocked_iff {index : Nat} {id : String} :
    (s.choose index).1 = .error (.choiceLocked id) ↔
      ∃ offer, s.offers[index]? = some offer ∧ offer.available = false ∧ offer.choice.id = id := by
  unfold choose
  cases hstatus : s.snapshot.status with
  | ended ending => simp [takeFound_of_ended hstatus, offers_of_ended hstatus]
  | active =>
      rw [takeFound_of_active hstatus, getElem?_offers hstatus]
      cases s.choices[index]? with
      | none => simp
      | some c =>
          have hid : Refusal.choiceLocked id = .choiceLocked c.id ↔ c.id = id := by
            rw [Refusal.choiceLocked.injEq, eq_comm]
          simp [take_eq_error_iff, hid, offer]

theorem choose_of_length_le (h : s.snapshot.status = .active) {index : Nat}
    (hindex : s.offers.length ≤ index) :
    s.choose index = (.error (.choiceOutOfRange index), s) := by
  rw [length_offers h] at hindex
  rw [choose, takeFound_of_active h, List.getElem?_eq_none hindex]
  rfl

theorem apply_eq_unknownChoice_iff (h : s.snapshot.status = .active) {id : String} :
    (s.apply id).1 = .error (.unknownChoice id) ↔ ∀ offer ∈ s.offers, offer.choice.id ≠ id := by
  have hoffers : (∀ offer ∈ s.offers, offer.choice.id ≠ id) ↔ ∀ c ∈ s.choices, c.id ≠ id := by
    simp only [mem_offers_iff h, List.mem_iff_getElem?]
    constructor
    · rintro hne c ⟨index, hc⟩
      exact hne _ ⟨index, c, hc, rfl⟩
    · rintro hne _ ⟨index, c, hc, rfl⟩
      exact hne c ⟨index, hc⟩
  rw [hoffers, apply, takeFound_of_active h]
  cases hfound : s.choices.find? fun c => c.id = id with
  | none => simpa using hfound
  | some c =>
      have hc := List.mem_of_find?_eq_some hfound
      have hid : c.id = id := by simpa using List.find?_some hfound
      have htake : (s.take c).1 ≠ .error (.unknownChoice id) := by
        simp [take_eq_error_iff]
      simpa [htake] using ⟨c, hc, hid⟩

/-- The offers of a session tell what can be done with it: the available ones can be taken, the
others are refused as locked and say why, and what is not offered is refused as unknown or out of
range.  After the end nothing is offered and everything is refused.  No refusal changes anything. -/
theorem offers_decide (s : Session) :
    (∀ index, (∃ outcome, (s.choose index).1 = .ok outcome) ↔
        ∃ offer, s.offers[index]? = some offer ∧ offer.available = true) ∧
      (∀ index id, (s.choose index).1 = .error (.choiceLocked id) ↔
        ∃ offer, s.offers[index]? = some offer ∧ offer.available = false ∧
          offer.choice.id = id) ∧
      (∀ ending, s.snapshot.status = .ended ending →
        s.offers = [] ∧ (∀ index, s.choose index = (.error (.ended ending), s)) ∧
          ∀ id, s.apply id = (.error (.ended ending), s)) ∧
      (s.snapshot.status = .active →
        (∀ index, s.offers.length ≤ index →
          s.choose index = (.error (.choiceOutOfRange index), s)) ∧
        ∀ id, (s.apply id).1 = .error (.unknownChoice id) ↔
          ∀ offer ∈ s.offers, offer.choice.id ≠ id) ∧
      (∀ offer ∈ s.offers, offer.lockedReason = none ↔ offer.available = true) ∧
      (∀ index refusal, (s.choose index).1 = .error refusal → (s.choose index).2 = s) ∧
      (∀ id refusal, (s.apply id).1 = .error refusal → (s.apply id).2 = s) ∧
      ∀ op refusal, (s.perform op).1 = .refused refusal → (s.perform op).2 = s := by
  refine ⟨fun index => exists_choose_iff, fun index id => choose_eq_choiceLocked_iff, ?_, ?_, ?_,
    fun index refusal => takeFound_of_refused, fun id refusal => takeFound_of_refused,
    fun op refusal => perform_of_refused⟩
  · intro ending hended
    exact ⟨offers_of_ended hended, fun index => takeFound_of_ended hended _ _,
      fun id => takeFound_of_ended hended _ _⟩
  · intro hactive
    exact ⟨fun index => choose_of_length_le hactive, fun id => apply_eq_unknownChoice_iff hactive⟩
  · intro offer hoffer
    cases hstatus : s.snapshot.status with
    | ended ending =>
        rw [offers_of_ended hstatus] at hoffer
        cases hoffer
    | active =>
        obtain ⟨index, c, -, rfl⟩ := (mem_offers_iff hstatus).1 hoffer
        exact lockedReason_offer_eq_none_iff

end Session

end Dialogue
