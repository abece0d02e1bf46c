import Dialogue.Proofs.Play.Offers
/-!
# Choices by number and by id

An offer is taken by its number or by the id of its choice.  Nothing keeps two choices of a node
from having the same id, and an id stands for the first of them.  So the two ways agree on every
offer that is the first with its id, and an offer behind another with the same id is taken by its
number only.
-/

namespace Dialogue

namespace Session

/-- An offer whose choice has an id that no offer before it has. -/
structure OffersFirst (s : Session) (id : String) (offer : Offer) : Prop where
  mem : offer ∈ s.offers
  id_eq : offer.choice.id = id
  least : ∀ other ∈ s.offers, other.choice.id = id → offer.index ≤ other.index

variable {s : Session} {offer other : Offer} {id : String}

theorem active_of_mem_offers (h : offer ∈ s.offers) : s.snapshot.status = .active := by
  cases hstatus : s.snapshot.status with
  | active => rfl
  | ended ending =>
      rw [offers_of_ended hstatus] at h
      cases h

theorem getElem?_choices_of_mem_offers (h : offer ∈ s.offers) :
    s.choices[offer.index]? = some offer.choice := by
  obtain ⟨index, c, hc, rfl⟩ := (mem_offers_iff (active_of_mem_offers h)).1 h
  exact hc

theorem index_lt_of_mem_offers (h : offer ∈ s.offers) : offer.index < s.offers.length := by
  rw [length_offers (active_of_mem_offers h)]
  exact (List.getElem?_eq_some_iff.1 (getElem?_choices_of_mem_offers h)).1

theorem available_of_mem_offers (h : offer ∈ s.offers) :
    offer.available = s.isAvailable offer.choice := by
  obtain ⟨index, c, -, rfl⟩ := (mem_offers_iff (active_of_mem_offers h)).1 h
  rfl

theorem eq_of_index_eq (h : offer ∈ s.offers) (h' : other ∈ s.offers)
    (hindex : offer.index = other.index) : offer = other := by
  obtain ⟨index, c, hc, rfl⟩ := (mem_offers_iff (active_of_mem_offers h)).1 h
  obtain ⟨index', c', hc', rfl⟩ := (mem_offers_iff (active_of_mem_offers h')).1 h'
  obtain rfl : index = index' := hindex
  obtain rfl : c = c' := Option.some.inj (hc.symm.trans hc')
  rfl

theorem OffersFirst.unique (h : s.OffersFirst id offer) (h' : s.OffersFirst id other) :
    offer = other := by
  have hle : offer.index ≤ other.index := h.least other h'.mem h'.id_eq
  have hge : other.index ≤ offer.index := h'.least offer h.mem h.id_eq
  exact eq_of_index_eq h.mem h'.mem (Nat.le_antisymm hle hge)

/-- An id is looked up at the first offer that has it. -/
theorem find?_choices_eq_some_iff (h : s.snapshot.status = .active) {c : Choice} :
    (s.choices.find? fun c => c.id = id) = some c ↔
      ∃ offer, s.OffersFirst id offer ∧ offer.choice = c := by
  rw [List.find?_eq_some_iff_getElem]
  constructor
  · rintro ⟨hid, index, hindex, rfl, hbefore⟩
    have hc : s.choices[index]? = some s.choices[index] := List.getElem?_eq_getElem hindex
    refine ⟨s.offer index s.choices[index], ⟨?_, of_decide_eq_true hid, ?_⟩, rfl⟩
    · exact (mem_offers_iff h).2 ⟨index, _, hc, rfl⟩
    · intro other hother hotherId
      refine Nat.le_of_not_lt fun (hlt : other.index < index) => ?_
      have hotherChoice := getElem?_choices_of_mem_offers hother
      rw [List.getElem?_eq_getElem (Nat.lt_trans hlt hindex)] at hotherChoice
      have hne := hbefore other.index hlt
      rw [Option.some.inj hotherChoice] at hne
      simp [hotherId] at hne
  · rintro ⟨offer, hfirst, rfl⟩
    have hchoice := getElem?_choices_of_mem_offers hfirst.mem
    obtain ⟨hindex, hget⟩ := List.getElem?_eq_some_iff.1 hchoice
    refine ⟨decide_eq_true hfirst.id_eq, offer.index, hindex, hget, fun earlier hearlier => ?_⟩
    have hbound : earlier < s.choices.length := Nat.lt_trans hearlier hindex
    have hmem : s.offer earlier s.choices[earlier] ∈ s.offers :=
      (mem_offers_iff h).2 ⟨earlier, _, List.getElem?_eq_getElem hbound, rfl⟩
    have hne : s.choices[earlier].id ≠ id := fun heq =>
      absurd (hfirst.least _ hmem heq) (Nat.not_le_of_lt hearlier)
    simpa using hne

theorem exists_offersFirst (h : offer ∈ s.offers) :
    ∃ first, s.OffersFirst offer.choice.id first := by
  have hactive := active_of_mem_offers h
  have hsome : (s.choices.find? fun c => c.id = offer.choice.id).isSome := by
    rw [List.find?_isSome]
    exact ⟨offer.choice, List.mem_of_getElem? (getElem?_choices_of_mem_offers h), by simp⟩
  obtain ⟨c, hc⟩ := Option.isSome_iff_exists.1 hsome
  obtain ⟨first, hfirst, -⟩ := (find?_choices_eq_some_iff hactive).1 hc
  exact ⟨first, hfirst⟩

theorem perform_choose_of_mem (h : offer ∈ s.offers) :
    s.perform (.choose offer.index) = (.of (s.take offer.choice).1, (s.take offer.choice).2) := by
  rw [perform, choose, takeFound_of_active (active_of_mem_offers h),
    getElem?_choices_of_mem_offers h, Option.elim_some]

theorem perform_apply_of_offersFirst (h : s.OffersFirst id offer) :
    s.perform (.apply id) = (.of (s.take offer.choice).1, (s.take offer.choice).2) := by
  have hactive := active_of_mem_offers h.mem
  rw [perform, apply, takeFound_of_active hactive,
    (find?_choices_eq_some_iff hactive).2 ⟨offer, h, rfl⟩, Option.elim_some]

/-- Locked choices with the same id are refused with the same words. -/
theorem take_eq_of_locked (h : offer ∈ s.offers) (h' : other ∈ s.offers)
    (hid : offer.choice.id = other.choice.id) (hlocked : offer.available = false)
    (hlocked' : other.available = false) : s.take offer.choice = s.take other.choice := by
  rw [available_of_mem_offers h] at hlocked
  rw [available_of_mem_offers h'] at hlocked'
  rw [take_of_not_isAvailable hlocked, take_of_not_isAvailable hlocked', hid]

/-- To take a choice by its id does the same as to take the first offer that has the id by its
number.  So an offer can be taken either way if it is that first one, if the first one offers an
equal choice, or if both are locked. -/
theorem choose_agrees_with_apply (h : offer ∈ s.offers) :
    ∃ first, s.OffersFirst offer.choice.id first ∧
      (∀ other, s.OffersFirst offer.choice.id other → other = first) ∧
      s.perform (.apply offer.choice.id) = s.perform (.choose first.index) ∧
      (offer = first ∨ offer.choice = first.choice ∨
          offer.available = false ∧ first.available = false →
        s.perform (.choose offer.index) = s.perform (.apply offer.choice.id)) := by
  obtain ⟨first, hfirst⟩ := exists_offersFirst h
  have happly := perform_apply_of_offersFirst hfirst
  refine ⟨first, hfirst, fun other hother => hother.unique hfirst, ?_, ?_⟩
  · rw [happly, perform_choose_of_mem hfirst.mem]
  · intro hsame
    rw [perform_choose_of_mem h, happly]
    rcases hsame with rfl | heq | ⟨hlocked, hlocked'⟩
    · rfl
    · rw [heq]
    · rw [take_eq_of_locked h hfirst.mem hfirst.id_eq.symm hlocked hlocked']

def fork : Tree :=
  (Tree.bare "fork" "fork").withNode
      ((Node.line "fork" "Signpost" "Where to?")
        |>.withChoice (Choice.leading "go" "To the mill." "mill")
        |>.withChoice (Choice.leading "go" "To the moor." "moor"))
    |>.withNode (Node.line "mill" "Miller" "Good day.")
    |>.withNode (Node.line "moor" "Wind" "...")

theorem choose_agrees_with_apply_at_fork :
    (start fork .bare).perform (.choose 0) = (start fork .bare).perform (.apply "go") := by
  have hmem : (start fork .bare).offer 0 (Choice.leading "go" "To the mill." "mill") ∈
      (start fork .bare).offers := (mem_offers_iff rfl).2 ⟨0, _, rfl, rfl⟩
  obtain ⟨first, -, hunique, -, hsame⟩ := choose_agrees_with_apply hmem
  exact hsame (.inl (hunique _ ⟨hmem, rfl, fun other hother hid => Nat.zero_le _⟩))

/-- By its number the second way leads to the moor, and by its id to the mill. -/
theorem not_choose_agrees_with_apply_fork :
    ∃ offer ∈ (start fork .bare).offers, offer.index = 1 ∧ offer.choice.id = "go" ∧
      ((start fork .bare).perform (.choose offer.index)).1 = .taken (.advanced "moor") ∧
      ((start fork .bare).perform (.apply offer.choice.id)).1 = .taken (.advanced "mill") ∧
      (start fork .bare).perform (.choose offer.index) ≠
        (start fork .bare).perform (.apply offer.choice.id) := by
  have hchoose : ((start fork .bare).perform (.choose 1)).1 = .taken (.advanced "moor") := rfl
  have happly : ((start fork .bare).perform (.apply "go")).1 = .taken (.advanced "mill") := rfl
  refine ⟨(start fork .bare).offer 1 (Choice.leading "go" "To the moor." "moor"),
    (mem_offers_iff rfl).2 ⟨1, _, rfl, rfl⟩, rfl, rfl, hchoose, happly, fun heq => ?_⟩
  have hsame := (hchoose.symm.trans (congrArg Prod.fst heq)).trans happly
  revert hsame
  decide

end Session

end Dialogue
