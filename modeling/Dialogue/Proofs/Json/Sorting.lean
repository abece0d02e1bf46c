import Dialogue.Proofs.Json.Agreement
import Mathlib.Data.List.Nodup
/-!
# Sorted members

The parser sorts the members of each object by their keys.  Where no key is repeated, sorting them
only changes their order, and the order of members matters for tables alone: records, lists and single
values are taken from a sorted value as from the value as it is written.
-/

namespace Dialogue

/-! ## Sorting entries -/

namespace SortedMap

variable {α β : Type}

theorem perm_entries_ofList {entries : List (String × α)} (h : (entries.map (·.1)).Nodup) :
    entries.Perm (ofList entries).entries := by
  have hreverse := h.perm (entries.reverse_perm.symm.map (·.1))
  refine (List.perm_ext_iff_of_nodup (List.Nodup.of_map _ h)
    (List.Nodup.of_map _ (ofList entries).nodup_keys)).2 ?_
  rintro ⟨key, value⟩
  rw [← List.mem_reverse, ← lookup_eq_some_iff hreverse, ← get?_ofList, get?,
    lookup_eq_some_iff (ofList entries).nodup_keys]

theorem entries_ofList_of_perm {entries sorted : List (String × α)}
    (hsorted : sorted.Pairwise fun a b => a.1 < b.1) (h : entries.Perm sorted) :
    (ofList entries).entries = sorted :=
  congrArg SortedMap.entries (ofList_perm (m := ⟨sorted, hsorted⟩) h)

end SortedMap

mutual

def Shape.isTableFree : Shape → Bool
  | .list item => item.isTableFree
  | .optional inner => inner.isTableFree
  | .record _ fields => fieldsTableFree fields
  | .table _ => false
  | .choice _ => false
  | _ => true

def fieldsTableFree : List (Field × Shape) → Bool
  | [] => true
  | (_, shape) :: rest => shape.isTableFree && fieldsTableFree rest

end

namespace Json

mutual

def sorted : Json → Json
  | .array items => .array (sortedItems items)
  | .object ms => .object (sortMembers (sortedValues ms))
  | j => j

def sortedItems : List Json → List Json
  | [] => []
  | j :: items => j.sorted :: sortedItems items

def sortedValues : List (String × Json) → List (String × Json)
  | [] => []
  | (name, j) :: ms => (name, j.sorted) :: sortedValues ms

end

theorem sortedItems_eq_map (items : List Json) : sortedItems items = items.map sorted := by
  induction items with
  | nil => rfl
  | cons j items ih => rw [sortedItems, ih, List.map_cons]

theorem sortedValues_eq_map (ms : List (String × Json)) :
    sortedValues ms = ms.map fun m => (m.1, m.2.sorted) := by
  induction ms with
  | nil => rfl
  | cons m ms ih => rw [sortedValues, ih, List.map_cons]

inductive Unrepeated : Json → Prop
  | null : Unrepeated .null
  | flag (b : Bool) : Unrepeated (.flag b)
  | number (n : Number) : Unrepeated (.number n)
  | text (s : String) : Unrepeated (.text s)
  | array {items : List Json} (hitems : ∀ j ∈ items, Unrepeated j) : Unrepeated (.array items)
  | object {ms : List (String × Json)} (hkeys : (ms.map (·.1)).Nodup)
      (hvalues : ∀ m ∈ ms, Unrepeated m.2) : Unrepeated (.object ms)

/-- Sorting only moves members that all have different keys. -/
theorem perm_sortMembers {ms : List (String × Json)} (hkeys : (ms.map (·.1)).Nodup) :
    (ms.map fun m => (m.1, m.2.sorted)).Perm (sortMembers (sortedValues ms)) := by
  rw [sortedValues_eq_map]
  exact SortedMap.perm_entries_ofList (by simpa [Function.comp_def] using hkeys)

/-! ## The parser -/

section Scans

variable {α β : Type} {scan : Scan α} {scan' : Scan β} {f : α → β}
  (hscan : ∀ cs, scan' cs = (scan cs).map fun r => (f r.1, r.2))

include hscan

theorem elements_map (clock : List Char) (first : Bool) (cs : List Char) :
    elements scan' clock first cs =
      (elements scan clock first cs).map fun r => (r.1.map f, r.2) := by
  induction clock generalizing first cs with
  | nil => rfl
  | cons c clock ih =>
      simp only [elements]
      cases nextElement first cs with
      | error e => rfl
      | ok next =>
          cases next with
          | none => cases closeList cs <;> rfl
          | some item =>
              simp only [bind, Except.bind, hscan, ih]
              cases scan item with
              | error e => rfl
              | ok r =>
                  simp only [Except.map]
                  cases elements scan clock false r.2 <;> rfl

theorem members_map (clock : List Char) (first : Bool) (cs : List Char) :
    members scan' clock first cs =
      (members scan clock first cs).map fun r => (r.1.map fun m => (m.1, f m.2), r.2) := by
  induction clock generalizing first cs with
  | nil => rfl
  | cons c clock ih =>
      simp only [members]
      cases nextKey first cs with
      | error e => rfl
      | ok next =>
          cases next with
          | none => cases closeObject cs <;> rfl
          | some member =>
              simp only [bind, Except.bind]
              cases colon member.2 with
              | error e => rfl
              | ok value =>
                  simp only [hscan, ih]
                  cases scan value with
                  | error e => rfl
                  | ok r =>
                      simp only [Except.map]
                      cases members scan clock false r.2 <;> rfl

end Scans

theorem map_eq_map_sorted {α : Type} (x : Except Failure α) {f : α → Json × List Char}
    (hf : ∀ a, (f a).1.sorted = (f a).1) : x.map f = (x.map f).map fun r => (r.1.sorted, r.2) := by
  cases x with
  | error e => rfl
  | ok a => simp only [Except.map, hf]

theorem valueWith_sortMembers (inner : Option (Scan Json)) (cs : List Char) :
    valueWith sortMembers (inner.map fun scan cs => (scan cs).map fun r => (r.1.sorted, r.2)) cs =
      (valueWith id inner cs).map fun r => (r.1.sorted, r.2) := by
  unfold valueWith
  cases skipGaps cs with
  | nil => rfl
  | cons c tail =>
      simp only
      split_ifs
      · exact map_eq_map_sorted _ fun _ => rfl
      · exact map_eq_map_sorted _ fun _ => rfl
      · exact map_eq_map_sorted _ fun _ => rfl
      · exact map_eq_map_sorted _ fun _ => rfl
      · exact map_eq_map_sorted _ fun _ => rfl
      · cases inner with
        | none => rfl
        | some item =>
            simp only [Option.map_some, elements_map fun _ => rfl]
            cases elements item tail true tail <;> simp [Except.map, sorted, sortedItems_eq_map]
      · cases inner with
        | none => rfl
        | some value =>
            simp only [Option.map_some, members_map fun _ => rfl]
            cases members value tail true tail <;> simp [Except.map, sorted, sortedValues_eq_map]
      · rfl

/-- Where the parser sorts members, it finds the value as it is written, with its members sorted. -/
theorem nested_sortMembers (depth : Nat) (cs : List Char) :
    nested sortMembers depth cs = (nested id depth cs).map fun r => (r.1.sorted, r.2) := by
  induction depth generalizing cs with
  | zero => exact valueWith_sortMembers none cs
  | succ depth ih =>
      rw [nested, nested, ← valueWith_sortMembers, Option.map_some, ← funext ih]

theorem parse_eq_ok_iff {s : String} {v : Json} :
    parse s = .ok v ↔ ∃ j, parseWritten s = .ok j ∧ v = j.sorted := by
  rw [parse, readAll_eq_ok_iff]
  constructor
  · rintro ⟨rest, hparse, hrest⟩
    rw [value, nested_sortMembers] at hparse
    obtain ⟨⟨j, left⟩, hj, heq⟩ := exists_of_map_eq_ok hparse
    cases heq
    exact ⟨j, readAll_eq_ok_iff.2 ⟨_, hj, hrest⟩, rfl⟩
  · rintro ⟨j, hj, rfl⟩
    obtain ⟨rest, hj, hrest⟩ := readAll_eq_ok_iff.1 hj
    refine ⟨rest, ?_, hrest⟩
    rw [value, nested_sortMembers, hj]
    rfl

/-! ## Texts without repeated keys -/

mutual

def isUnrepeated : Json → Bool
  | .array items => allUnrepeated items
  | .object ms => decide (ms.map (·.1)).Nodup && membersUnrepeated ms
  | _ => true

def allUnrepeated : List Json → Bool
  | [] => true
  | j :: items => j.isUnrepeated && allUnrepeated items

def membersUnrepeated : List (String × Json) → Bool
  | [] => true
  | (_, j) :: ms => j.isUnrepeated && membersUnrepeated ms

end

mutual

theorem isUnrepeated_iff : (j : Json) → (j.isUnrepeated = true ↔ j.Unrepeated)
  | .null => ⟨fun _ => .null, fun _ => rfl⟩
  | .flag b => ⟨fun _ => .flag b, fun _ => rfl⟩
  | .number n => ⟨fun _ => .number n, fun _ => rfl⟩
  | .text s => ⟨fun _ => .text s, fun _ => rfl⟩
  | .array items => by
      rw [isUnrepeated, allUnrepeated_iff items]
      exact ⟨.array, fun | .array hitems => hitems⟩
  | .object ms => by
      rw [isUnrepeated, Bool.and_eq_true, decide_eq_true_iff, membersUnrepeated_iff ms]
      exact ⟨fun h => .object h.1 h.2, fun | .object hkeys hvalues => ⟨hkeys, hvalues⟩⟩

theorem allUnrepeated_iff : (items : List Json) →
    (allUnrepeated items = true ↔ ∀ j ∈ items, j.Unrepeated)
  | [] => by simp [allUnrepeated]
  | j :: items => by
      rw [allUnrepeated, Bool.and_eq_true, isUnrepeated_iff j, allUnrepeated_iff items,
        List.forall_mem_cons]

theorem membersUnrepeated_iff : (ms : List (String × Json)) →
    (membersUnrepeated ms = true ↔ ∀ m ∈ ms, m.2.Unrepeated)
  | [] => by simp [membersUnrepeated]
  | (name, j) :: ms => by
      rw [membersUnrepeated, Bool.and_eq_true, isUnrepeated_iff j, membersUnrepeated_iff ms,
        List.forall_mem_cons]

end

instance : DecidablePred Unrepeated := fun j => decidable_of_iff _ (isUnrepeated_iff j)

def IsUnrepeated (s : String) : Prop := ∃ j ∈ (parseWritten s).toOption, j.Unrepeated

instance : DecidablePred IsUnrepeated := fun s =>
  match h : (parseWritten s).toOption with
  | none => isFalse fun ⟨_, hj, _⟩ => by simp [h] at hj
  | some j => decidable_of_iff j.Unrepeated (by simp [IsUnrepeated, h])

/-! ## Taking data from sorted values -/

section Options

variable {α β γ δ : Type}

theorem rel_mono {r r' : α → β → Prop} {x : Option α} {y : Option β} (h : Option.Rel r x y)
    (hr : ∀ a b, r a b → r' a b) : Option.Rel r' x y := by
  cases h with
  | none => exact .none
  | some hab => exact .some (hr _ _ hab)

theorem rel_map {r : α → β → Prop} {r' : γ → δ → Prop} {x : Option α} {y : Option β}
    (h : Option.Rel r x y) {f : α → γ} {g : β → δ} (hf : ∀ a b, r a b → r' (f a) (g b)) :
    Option.Rel r' (x.map f) (y.map g) := by
  cases h with
  | none => exact .none
  | some hab => exact .some (hf _ _ hab)

theorem rel_bind {r : α → β → Prop} {r' : γ → δ → Prop} {x : Option α} {y : Option β}
    (h : Option.Rel r x y) {f : α → Option γ} {g : β → Option δ}
    (hf : ∀ a b, r a b → Option.Rel r' (f a) (g b)) : Option.Rel r' (x.bind f) (y.bind g) := by
  cases h with
  | none => exact .none
  | some hab => exact hf _ _ hab

theorem rel_mapM {r : β → γ → Prop} {f : α → Option β} {g : α → Option γ} {as : List α}
    (h : ∀ a ∈ as, Option.Rel r (f a) (g a)) :
    Option.Rel (List.Forall₂ r) (as.mapM f) (as.mapM g) := by
  induction as with
  | nil => exact .some .nil
  | cons a as ih =>
      have hrest := ih fun b hb => h b (List.mem_cons_of_mem _ hb)
      rw [List.mapM_cons, List.mapM_cons]
      exact rel_bind (h a List.mem_cons_self) fun _ _ hhead =>
        rel_bind hrest fun _ _ htail => .some (.cons hhead htail)

theorem perm_mapM {f : α → Option β} {as bs : List α} (h : as.Perm bs) :
    Option.Rel List.Perm (as.mapM f) (bs.mapM f) := by
  induction h with
  | nil => exact .some (.refl _)
  | @cons a as bs _ ih =>
      rw [List.mapM_cons, List.mapM_cons]
      cases f a with
      | none => exact .none
      | some x => exact rel_bind ih fun _ _ hperm => .some (hperm.cons x)
  | swap a b as =>
      simp only [List.mapM_cons]
      cases f a <;> cases f b <;> cases as.mapM f
      all_goals first | exact .none | exact .some (.swap _ _ _)
  | @trans as bs cs _ _ ih ih' =>
      generalize as.mapM f = xs, bs.mapM f = ys, cs.mapM f = zs at ih ih'
      cases ih with
      | none => exact ih'
      | some hperm =>
          cases ih' with
          | some hperm' => exact .some (hperm.trans hperm')

end Options

/-- What is taken from a sorted value is related to what is taken from the value as it is written, if
anything is taken from either. -/
def FollowsSorting (r : Datum → Datum → Prop) (take : Take) : Prop :=
  ∀ j, j.Unrepeated → Option.Rel r (take j).toOption (take j.sorted).toOption

/-! ### Records -/

section Records

variable (r : String → Datum → Datum → Prop)

/-- The field is taken from sorted values in the relation that belongs to its name, in which stands
also what is put in its place. -/
structure SlotFollows (slot : Slot Take) : Prop where
  reader : FollowsSorting (r slot.field.name) slot.reader
  default : ∀ d, Partial.datumOf (slot, none) = .ok d → r slot.field.name d d

inductive RelData : List (Slot Take) → List Datum → List Datum → Prop
  | nil : RelData [] [] []
  | cons {slot : Slot Take} {slots : List (Slot Take)} {d e : Datum} {data data' : List Datum}
      (hdatum : r slot.field.name d e) (hdata : RelData slots data data') :
      RelData (slot :: slots) (d :: data) (e :: data')

structure RelEntry (a b : Slot Take × Option Datum) : Prop where
  slot : a.1 = b.1
  datum : Option.Rel (r a.1.field.name) a.2 b.2

inductive RelStanding (name : String) : Standing Take → Standing Take → Prop
  | unknown : RelStanding name .unknown .unknown
  | taken : RelStanding name .taken .taken
  | free {take : Take} (h : FollowsSorting (r name) take) :
      RelStanding name (.free take) (.free take)

variable {r} {p q : Partial Take}

theorem relStanding (hslots : ∀ a ∈ p, SlotFollows r a.1) (h : List.Forall₂ (RelEntry r) p q)
    (name : String) : RelStanding r name (p.standing name) (q.standing name) := by
  induction h with
  | nil => exact .unknown
  | @cons a b p q hab _ ih =>
      obtain ⟨slot, datum⟩ := a
      obtain ⟨slot', datum'⟩ := b
      obtain ⟨rfl, hdatum⟩ := hab
      simp only [Partial.standing]
      split
      next hname =>
        cases hdatum with
        | none => exact .free (hname ▸ (hslots _ List.mem_cons_self).reader)
        | some => exact .taken
      next => exact ih fun a ha => hslots a (List.mem_cons_of_mem _ ha)

theorem relEntry_fill (h : List.Forall₂ (RelEntry r) p q) {name : String} {d e : Datum}
    (hdatum : r name d e) : List.Forall₂ (RelEntry r) (p.fill name d) (q.fill name e) := by
  induction h with
  | nil => exact .nil
  | @cons a b p q hab hrest ih =>
      obtain ⟨slot, datum⟩ := a
      obtain ⟨slot', datum'⟩ := b
      obtain ⟨rfl, hdatum'⟩ := hab
      simp only [Partial.fill]
      split
      next hname => exact .cons ⟨rfl, .some (hname ▸ hdatum)⟩ hrest
      next => exact .cons ⟨rfl, hdatum'⟩ ih

theorem rel_complete (hslots : ∀ a ∈ p, SlotFollows r a.1) (h : List.Forall₂ (RelEntry r) p q) :
    Option.Rel (RelData r (p.map (·.1))) p.complete.toOption q.complete.toOption := by
  rw [Partial.complete_eq_mapM, Partial.complete_eq_mapM]
  induction h with
  | nil => exact .some .nil
  | @cons a b p q hab _ ih =>
      have hrest := ih fun a ha => hslots a (List.mem_cons_of_mem _ ha)
      have hhead : Option.Rel (r a.1.field.name) (Partial.datumOf a).toOption
          (Partial.datumOf b).toOption := by
        obtain ⟨slot, datum⟩ := a
        obtain ⟨slot', datum'⟩ := b
        obtain ⟨rfl, hdatum⟩ := hab
        cases hdatum with
        | some hdatum => exact .some hdatum
        | none =>
            have hdefault := (hslots _ List.mem_cons_self).default
            cases hd : Partial.datumOf (slot, none) with
            | error e => exact .none
            | ok d => exact .some (hdefault d hd)
      simp only [List.mapM_cons, toOption_bind, toOption_pure, List.map_cons]
      exact rel_bind hhead fun _ _ hdatum => rel_bind hrest fun _ _ hdata => .some (.cons hdatum hdata)

theorem rel_takeMembers (hslots : ∀ slot ∈ p.map (·.1), SlotFollows r slot)
    (h : List.Forall₂ (RelEntry r) p q) {ms : List (String × Json)}
    (hms : ∀ m ∈ ms, m.2.Unrepeated) :
    Option.Rel (RelData r (p.map (·.1))) (takeMembers p ms).toOption
      (takeMembers q (ms.map fun m => (m.1, m.2.sorted))).toOption := by
  have hentries {p : Partial Take} (hslots : ∀ slot ∈ p.map (·.1), SlotFollows r slot) :
      ∀ a ∈ p, SlotFollows r a.1 := fun a ha => hslots a.1 (List.mem_map_of_mem ha)
  induction ms generalizing p q with
  | nil =>
      simp only [List.map_nil, takeMembers, toOption_mapError]
      exact rel_complete (hentries hslots) h
  | cons m ms ih =>
      obtain ⟨name, j⟩ := m
      have hmore := fun m hm => hms m (List.mem_cons_of_mem _ hm)
      have hstanding := relStanding (hentries hslots) h name
      simp only [List.map_cons, takeMembers]
      generalize p.standing name = s, q.standing name = s' at hstanding
      cases hstanding with
      | unknown => exact ih hslots h hmore
      | taken => exact .none
      | @free take hfollows =>
          simp only [toOption_bind]
          refine rel_bind (hfollows j (hms _ List.mem_cons_self)) fun d e hdatum => ?_
          have hfilled := ih (by rwa [map_fst_fill]) (relEntry_fill h hdatum) hmore
          rwa [map_fst_fill] at hfilled

theorem standing_fill_of_ne {ρ : Type} {name other : String} (hne : name ≠ other) (d : Datum)
    (p : Partial ρ) : (p.fill other d).standing name = p.standing name := by
  induction p with
  | nil => rfl
  | cons a p ih =>
      obtain ⟨slot, datum⟩ := a
      simp only [Partial.fill]
      split
      next hother =>
        have : slot.field.name ≠ name := fun hname => hne (hname ▸ hother)
        simp only [Partial.standing, if_neg this]
      next => simp only [Partial.standing, ih]

theorem fill_comm {ρ : Type} {name other : String} (hne : name ≠ other) (d e : Datum)
    (p : Partial ρ) : (p.fill other e).fill name d = (p.fill name d).fill other e := by
  induction p with
  | nil => rfl
  | cons a p ih =>
      obtain ⟨slot, datum⟩ := a
      by_cases hname : slot.field.name = name
      · have hother : slot.field.name ≠ other := fun h => hne (hname ▸ h)
        simp only [Partial.fill, if_pos hname, if_neg hother]
      · by_cases hother : slot.field.name = other
        · simp only [Partial.fill, if_neg hname, if_pos hother]
        · simp only [Partial.fill, if_neg hname, if_neg hother, ih]

/-- Where no key is repeated, it makes no difference in which order fields are taken. -/
theorem toOption_takeMembers_of_perm {ms ms' : List (String × Json)} (h : ms.Perm ms')
    (hkeys : (ms.map (·.1)).Nodup) (p : Partial Take) :
    (takeMembers p ms).toOption = (takeMembers p ms').toOption := by
  induction h generalizing p with
  | nil => rfl
  | @cons m ms ms' _ ih =>
      obtain ⟨name, j⟩ := m
      have hrest := ih (List.nodup_cons.1 hkeys).2
      simp only [takeMembers]
      cases p.standing name with
      | unknown => exact hrest p
      | taken => rfl
      | free take => simp only [toOption_bind, hrest]
  | swap m m' ms =>
      obtain ⟨name, j⟩ := m
      obtain ⟨other, k⟩ := m'
      have hne : name ≠ other := fun heq => by simp [heq] at hkeys
      simp only [takeMembers]
      cases hname : p.standing name <;> cases hother : p.standing other <;>
        simp [hname, hother, standing_fill_of_ne hne, standing_fill_of_ne hne.symm]
      -- Two fields are filled, one after the other.
      simp only [fill_comm hne]
      exact Option.bind_comm _ _
  | trans h _ ih ih' => exact (ih hkeys p).trans (ih' ((h.map (·.1)).nodup hkeys) p)

theorem rel_takePlaces {title : Title} {count index : Nat} {slots : List (Slot Take)}
    (hslots : ∀ slot ∈ slots, SlotFollows r slot) {items : List Json}
    (hitems : ∀ j ∈ items, j.Unrepeated) :
    Option.Rel (fun x y => RelData r slots x.1 y.1 ∧ y.2 = x.2.map sorted)
      (takePlaces title count index slots items).toOption
      (takePlaces title count index slots (items.map sorted)).toOption := by
  induction slots generalizing index items with
  | nil => exact .some ⟨.nil, rfl⟩
  | cons slot slots ih =>
      have hmore := fun s hs => hslots s (List.mem_cons_of_mem _ hs)
      have hslot := hslots slot List.mem_cons_self
      cases items with
      | nil =>
          simp only [List.map_nil, takePlaces]
          cases habsence : slot.field.absence with
          | filled d =>
              have hrest := @ih (index + 1) hmore _ hitems
              have hdefault := hslot.default d (by simp only [Partial.datumOf, habsence])
              simp only [toOption_map]
              exact rel_map hrest fun _ _ h => ⟨.cons hdefault h.1, h.2⟩
          | _ => exact .none
      | cons j items =>
          have hrest := @ih (index + 1) hmore items fun k hk => hitems k (List.mem_cons_of_mem _ hk)
          simp only [List.map_cons, takePlaces, toOption_bind, toOption_pure]
          exact rel_bind (hslot.reader j (hitems j List.mem_cons_self)) fun _ _ hdatum =>
            rel_bind hrest fun _ _ h => .some ⟨.cons hdatum h.1, h.2⟩

def RelRecord (r : String → Datum → Datum → Prop) (slots : List (Slot Take)) (d e : Datum) : Prop :=
  ∃ data data', d = .record data ∧ e = .record data' ∧ RelData r slots data data'

theorem followsSorting_takeRecord {title : Title} {slots : List (Slot Take)}
    (hslots : ∀ slot ∈ slots, SlotFollows r slot) :
    FollowsSorting (RelRecord r slots) (takeRecord title slots) := by
  intro j hj
  cases hj with
  | @object ms hkeys hvalues =>
      have hentries : List.Forall₂ (RelEntry r) (Partial.ofSlots slots) (Partial.ofSlots slots) :=
        List.forall₂_same.2 fun a ha => by
          obtain ⟨slot, -, rfl⟩ := List.mem_map.1 ha
          exact ⟨rfl, .none⟩
      have hnames : (Partial.ofSlots slots).map (·.1) = slots := by
        simp [Partial.ofSlots, Function.comp_def]
      have hvalued := rel_takeMembers (hnames.symm ▸ hslots) hentries hvalues
      have hsorted := toOption_takeMembers_of_perm (perm_sortMembers hkeys)
        (by simpa [Function.comp_def] using hkeys) (Partial.ofSlots slots)
      rw [hsorted, hnames] at hvalued
      simp only [sorted, takeRecord, toOption_map]
      exact rel_map hvalued fun _ _ hdata => ⟨_, _, rfl, rfl, hdata⟩
  | @array items hitems =>
      have hplaces := @rel_takePlaces r title slots.length 0 slots hslots items hitems
      simp only [sorted, sortedItems_eq_map, takeRecord, toOption_bind]
      refine rel_bind hplaces fun x y hxy => ?_
      obtain ⟨data, left⟩ := x
      obtain ⟨data', left'⟩ := y
      obtain ⟨hdata, hleft⟩ := hxy
      subst hleft
      cases left with
      | nil => exact .some ⟨_, _, rfl, rfl, hdata⟩
      | cons j left => exact .none
  | _ => exact .none

end Records

/-! ### Tables -/

theorem map_fst_mapM {α β : Type} {f : String × α → Option (String × β)}
    (hf : ∀ m entry, f m = some entry → entry.1 = m.1) {ms : List (String × α)}
    {entries : List (String × β)} (h : ms.mapM f = some entries) :
    entries.map (·.1) = ms.map (·.1) := by
  induction ms generalizing entries with
  | nil => cases h; rfl
  | cons m ms ih =>
      rw [List.mapM_cons] at h
      obtain ⟨entry, hentry, h⟩ := Option.bind_eq_some_iff.1 h
      obtain ⟨rest, hrest, h⟩ := Option.bind_eq_some_iff.1 h
      cases h
      rw [List.map_cons, List.map_cons, hf m entry hentry, ih hrest]

/-- Two tables with related values under the same keys, of which each has one. The second table is
sorted. -/
def RelTable (r : Datum → Datum → Prop) (d e : Datum) : Prop :=
  ∃ entries related sorted, d = .table entries ∧ e = .table sorted ∧
    (entries.map (·.1)).Nodup ∧
    List.Forall₂ (fun a b => a.1 = b.1 ∧ r a.2 b.2) entries related ∧ related.Perm sorted ∧
    sorted.Pairwise fun a b => a.1 < b.1

theorem followsSorting_takeTable {r : Datum → Datum → Prop} {value : Take}
    (hvalue : FollowsSorting r value) : FollowsSorting (RelTable r) (takeTable value) := by
  intro j hj
  cases hj with
  | @object ms hkeys hvalues =>
      let taken : String × Json → Option (String × Datum) := fun m =>
        (value m.2).toOption.map fun x => (m.1, x)
      have hkey : ∀ m entry, taken m = some entry → entry.1 = m.1 := fun m entry hentry => by
        obtain ⟨x, -, rfl⟩ := Option.map_eq_some_iff.1 hentry
        rfl
      have hrelated : Option.Rel (List.Forall₂ fun a b => a.1 = b.1 ∧ r a.2 b.2)
          (ms.mapM taken) ((ms.map fun m => (m.1, m.2.sorted)).mapM taken) := by
        rw [List.mapM_map]
        refine rel_mapM fun m hm => ?_
        exact rel_map (hvalue m.2 (hvalues m hm)) fun _ _ h => ⟨rfl, h⟩
      have hperm := perm_mapM (f := taken) (perm_sortMembers hkeys)
      simp only [sorted, takeTable, toOption_map, toOption_mapM]
      change Option.Rel _ ((ms.mapM taken).map _) (((sortMembers (sortedValues ms)).mapM taken).map _)
      generalize hentries : ms.mapM taken = x at hrelated ⊢
      generalize (ms.map fun m => (m.1, m.2.sorted)).mapM taken = y at hrelated hperm
      generalize hsorted : (sortMembers (sortedValues ms)).mapM taken = z at hperm ⊢
      cases hrelated with
      | none =>
          cases hperm
          exact .none
      | @some entries related hrelated =>
          cases hperm with
          | @some _ sorted hperm =>
              refine .some ⟨entries, related, sorted, rfl, rfl, ?_, hrelated, hperm, ?_⟩
              · rwa [map_fst_mapM hkey hentries]
              · rw [← List.pairwise_map (f := Prod.fst) (R := (· < ·)), map_fst_mapM hkey hsorted,
                  List.pairwise_map]
                exact (SortedMap.ofList _).sorted
  | _ => exact .none

/-! ### Shapes without tables -/

/-- What is not taken from lists and objects is taken from sorted values as it is. -/
theorem followsSorting_of_plain {take : Take} (harray : ∀ items, (take (.array items)).toOption = none)
    (hobject : ∀ ms, (take (.object ms)).toOption = none) : FollowsSorting Eq take := by
  intro j hj
  cases hj with
  | array => rw [sorted, harray, harray]; exact .none
  | object => rw [sorted, hobject, hobject]; exact .none
  | _ =>
      simp only [sorted]
      generalize (take _).toOption = x
      cases x with
      | none => exact .none
      | some d => exact .some rfl

theorem followsSorting_takeList {item : Take} (hitem : FollowsSorting Eq item) :
    FollowsSorting Eq (takeList item) := by
  intro j hj
  cases hj with
  | @array items hitems =>
      have hdata : Option.Rel (List.Forall₂ Eq) (items.mapM fun j => (item j).toOption)
          ((items.map sorted).mapM fun j => (item j).toOption) := by
        rw [List.mapM_map]
        exact rel_mapM fun j hj => hitem j (hitems j hj)
      simp only [sorted, sortedItems_eq_map, takeList, toOption_map, toOption_mapM]
      exact rel_map hdata fun _ _ h => congrArg Datum.list (List.forall₂_eq_eq_eq ▸ h)
  | _ => exact .none

theorem followsSorting_takeOptional {inner : Take} (hinner : FollowsSorting Eq inner) :
    FollowsSorting Eq (takeOptional inner) := by
  intro j hj
  have hpresent := hinner j hj
  cases hj with
  | null => exact .some rfl
  | _ =>
      simp only [sorted, takeOptional, toOption_map] at hpresent ⊢
      exact rel_map hpresent fun _ _ h => congrArg Datum.present h

theorem eq_of_relRecord {slots : List (Slot Take)} {d e : Datum}
    (h : RelRecord (fun _ => Eq) slots d e) : d = e := by
  obtain ⟨data, data', rfl, rfl, hdata⟩ := h
  induction hdata with
  | nil => rfl
  | cons hdatum _ ih => rw [hdatum, Datum.record.inj ih]

mutual

/-- What a shape without tables takes from a sorted value is what it takes from the value as it is
written. -/
theorem followsSorting_takeDatum : (shape : Shape) → shape.isTableFree = true →
    FollowsSorting Eq (takeDatum shape)
  | .text, _ => followsSorting_of_plain (fun _ => rfl) fun _ => rfl
  | .flag, _ => followsSorting_of_plain (fun _ => rfl) fun _ => rfl
  | .count, _ => followsSorting_of_plain (fun _ => rfl) fun _ => rfl
  | .size, _ => followsSorting_of_plain (fun _ => rfl) fun _ => rfl
  | .real, _ => followsSorting_of_plain (fun _ => rfl) fun _ => rfl
  | .list item, h => followsSorting_takeList (followsSorting_takeDatum item h)
  | .optional inner, h => followsSorting_takeOptional (followsSorting_takeDatum inner h)
  | .record _ fields, h => fun j hj =>
      rel_mono (followsSorting_takeRecord (slotFollows_slots fields h) j hj) fun _ _ => eq_of_relRecord
  | .table _, h => by cases h
  | .choice _, h => by cases h

theorem slotFollows_slots : (fields : List (Field × Shape)) → fieldsTableFree fields = true →
    ∀ slot ∈ valueReaders.slots fields, SlotFollows (fun _ => Eq) slot
  | [], _, _, h => by cases h
  | (_, shape) :: fields, hfree, slot, h => by
      have hfree := Bool.and_eq_true_iff.1 hfree
      rcases List.mem_cons.1 h with rfl | h
      · exact ⟨followsSorting_takeDatum shape hfree.1, fun _ _ => rfl⟩
      · exact slotFollows_slots fields hfree.2 slot h

end

end Json

end Dialogue
