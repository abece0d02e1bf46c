import Dialogue.Json.Conversion
import Dialogue.Proofs.Json.Readers
import Mathlib.Data.List.Forall2
/-!
# Reading a text and taking its value apart

Where a text is read and where it is parsed first, its value is taken apart by the same shape.  As long
as the members stand in the order in which they are written, both come to the same data.  Only choices
are left out here: the fields of a variant can be read from a list, but not taken from one.
-/

namespace Dialogue

mutual

def Shape.isPlain : Shape → Bool
  | .list item => item.isPlain
  | .table value => value.isPlain
  | .optional inner => inner.isPlain
  | .record _ fields => fieldsPlain fields
  | .choice _ => false
  | _ => true

def fieldsPlain : List (Field × Shape) → Bool
  | [] => true
  | (_, shape) :: rest => shape.isPlain && fieldsPlain rest

end

namespace Json

/-- Reading at the start of a text comes to the same as taking the value apart that stands there, with
its members as they are written. -/
def Agrees (read : Scan Datum) (take : Take) : Prop :=
  ∀ ⦃depth cs j rest⦄, nested id depth cs = .ok (j, rest) →
    (read cs).toOption = (take j).toOption.map fun d => (d, rest)

theorem exists_parsed {depth : Nat} {cs rest : List Char} {j : Json}
    (h : nested id depth cs = .ok (j, rest)) :
    ∃ inner, (∀ scan, inner = some scan → ∃ depth, scan = nested id depth) ∧
      Parsed id inner cs rest j := by
  cases depth with
  | zero => exact ⟨none, (by simp), parsed_of_valueWith h⟩
  | succ depth => exact ⟨_, fun _ h => ⟨depth, (Option.some.inj h).symm⟩, parsed_of_valueWith h⟩

@[simp] theorem toOption_mismatch {α : Type} (expected : String) (cs : List Char) :
    (mismatch expected cs : Except Failure α).toOption = none := by
  cases h : (mismatch expected cs : Except Failure α) with
  | error e => rfl
  | ok a => exact absurd h mismatch_ne_ok

@[simp] theorem toOption_refuse {α : Type} (expected : String) (j : Json) :
    (refuse expected j : Except ReadError α).toOption = none := rfl

@[simp] theorem toOption_failBefore {α : Type} (e : ReadError) (cs : List Char) :
    (failBefore e cs : Except Failure α).toOption = none := rfl

@[simp] theorem toOption_failClosing {α : Type} (close : Char) (e : ReadError) (cs : List Char) :
    (failClosing close e cs : Except Failure α).toOption = none := by
  unfold failClosing
  split <;> rfl

/-! ## Plain values -/

theorem ne_of_startsNumber {c d : Char} (h : startsNumber c = true) (hd : startsNumber d = false) :
    c ≠ d := fun heq => by
  rw [heq, hd] at h
  cases h

theorem agrees_readText : Agrees readText takeText := by
  intro depth cs j rest h
  obtain ⟨inner, -, hparsed⟩ := exists_parsed h
  cases hparsed with
  | text hcs htext => simp [readText, hcs, htext, takeText]
  | number hcs hstart hnumber =>
      have hc := ne_of_startsNumber hstart (d := '"') rfl
      simp [readText, hcs, takeText, hc]
  | _ hcs => simp [readText, hcs, takeText]

theorem agrees_readFlag : Agrees readFlag takeFlag := by
  intro depth cs j rest h
  obtain ⟨inner, -, hparsed⟩ := exists_parsed h
  cases hparsed with
  | yes hcs hword => simp [readFlag, hcs, hword, takeFlag]
  | no hcs hword => simp [readFlag, hcs, hword, takeFlag]
  | number hcs hstart hnumber =>
      have ht := ne_of_startsNumber hstart (d := 't') rfl
      have hf := ne_of_startsNumber hstart (d := 'f') rfl
      simp [readFlag, hcs, takeFlag, ht, hf]
  | _ hcs => simp [readFlag, hcs, takeFlag]

theorem agrees_readWhole (least greatest : Int) (expected : String) :
    Agrees (readWhole least greatest expected) (takeWhole least greatest expected) := by
  intro depth cs j rest h
  obtain ⟨inner, -, hparsed⟩ := exists_parsed h
  cases hparsed with
  | @number c tail n hcs hstart hnumber =>
      simp only [readWhole, hcs, hstart, if_true, hnumber, takeWhole]
      cases hwhole : wholeBetween least greatest expected n <;> simp [hwhole]
  | _ hcs => simp [readWhole, hcs, takeWhole, startsNumber]

theorem agrees_readReal : Agrees readReal takeReal := by
  intro depth cs j rest h
  obtain ⟨inner, -, hparsed⟩ := exists_parsed h
  cases hparsed with
  | number hcs hstart hnumber => simp [readReal, hcs, hstart, hnumber, takeReal]
  | _ hcs => simp [readReal, hcs, takeReal, startsNumber]

/-! ## Lists, tables and what may be absent -/

theorem nested_skipGaps (order : List (String × Json) → List (String × Json)) (depth : Nat)
    (cs : List Char) : nested order depth (skipGaps cs) = nested order depth cs := by
  cases depth <;> simp only [nested, valueWith, skipGaps_skipGaps]

section Inner

variable {read : Scan Datum} {take : Take} (hread : Agrees read take) {depth : Nat}
  {clock cs rest : List Char} {first : Bool}

include hread

theorem toOption_elements {items : List Json}
    (h : ElementsRead (nested id depth) rest clock first cs items) :
    (elements read clock first cs).toOption =
      (items.mapM fun j => (take j).toOption).map fun data => (data, rest) := by
  induction h with
  | done hnext hclose => simp [elements, hnext, hclose]
  | @more _ _ _ _ _ _ j items hnext hitem _ ih =>
      cases hj : (take j).toOption with
      | none => simp [elements, hnext, hread hitem, hj]
      | some d =>
          cases hitems : items.mapM fun j => (take j).toOption <;>
            simp [elements, hnext, hread hitem, hj, ih, hitems]

theorem agrees_readList : Agrees (readList read) (takeList take) := by
  intro depth cs j rest h
  obtain ⟨inner, hinner, hparsed⟩ := exists_parsed h
  cases hparsed with
  | array hcs hsome hitems =>
      obtain ⟨depth, rfl⟩ := hinner _ hsome
      simp [readList, hcs, toOption_elements hread (elements_eq_ok_iff.1 hitems), takeList, Function.comp_def]
  | number hcs hstart hnumber =>
      have hc := ne_of_startsNumber hstart (d := '[') rfl
      simp [readList, hcs, takeList, hc]
  | _ hcs => simp [readList, hcs, takeList]

theorem toOption_members {ms : List (String × Json)}
    (h : MembersRead (nested id depth) rest clock first cs ms) :
    (members read clock first cs).toOption =
      (ms.mapM fun m => (take m.2).toOption.map fun x => (m.1, x)).map fun data => (data, rest) := by
  induction h with
  | done hnext hclose => simp [members, hnext, hclose]
  | @more _ _ _ _ _ _ _ name j ms hnext hcolon hvalue _ ih =>
      cases hj : (take j).toOption with
      | none => simp [members, hnext, hcolon, hread hvalue, hj]
      | some d =>
          cases hms : ms.mapM fun m => (take m.2).toOption.map fun x => (m.1, x) <;>
            simp [members, hnext, hcolon, hread hvalue, hj, ih, hms]

theorem agrees_readTable : Agrees (readTable read) (takeTable take) := by
  intro depth cs j rest h
  obtain ⟨inner, hinner, hparsed⟩ := exists_parsed h
  cases hparsed with
  | object hcs hsome hmembers =>
      obtain ⟨depth, rfl⟩ := hinner _ hsome
      simp [readTable, hcs, toOption_members hread (members_eq_ok_iff.1 hmembers), takeTable, Function.comp_def]
  | number hcs hstart hnumber =>
      have hc := ne_of_startsNumber hstart (d := '{') rfl
      simp [readTable, hcs, takeTable, hc]
  | _ hcs => simp [readTable, hcs, takeTable]

theorem agrees_readOptional : Agrees (readOptional read) (takeOptional take) := by
  intro depth cs j rest h
  have hpresent := hread ((nested_skipGaps id depth cs).trans h)
  obtain ⟨inner, hinner, hparsed⟩ := exists_parsed h
  cases hparsed with
  | null hcs hword => simp [readOptional, hcs, hword, takeOptional]
  | number hcs hstart hnumber =>
      have hc := ne_of_startsNumber hstart (d := 'n') rfl
      rw [hcs] at hpresent
      simp [readOptional, hcs, takeOptional, hc, hpresent, Function.comp_def]
  | _ hcs =>
      rw [hcs] at hpresent
      simp [readOptional, hcs, takeOptional, hpresent, Function.comp_def]

end Inner

/-! ## Records -/

structure SameSlot (a : Slot (Scan Datum)) (b : Slot Take) : Prop where
  field : a.field = b.field
  agrees : Agrees a.reader b.reader

structure SameEntry (a : Slot (Scan Datum) × Option Datum) (b : Slot Take × Option Datum) : Prop where
  slot : SameSlot a.1 b.1
  datum : a.2 = b.2

inductive SameStanding : Standing (Scan Datum) → Standing Take → Prop
  | unknown : SameStanding .unknown .unknown
  | taken : SameStanding .taken .taken
  | free {read : Scan Datum} {take : Take} (h : Agrees read take) :
      SameStanding (.free read) (.free take)

section Fields

variable {p : Partial (Scan Datum)} {q : Partial Take}

theorem sameStanding (h : List.Forall₂ SameEntry p q) (name : String) :
    SameStanding (p.standing name) (q.standing name) := by
  induction h with
  | nil => exact .unknown
  | @cons a b p q hab _ ih =>
      obtain ⟨slot, datum⟩ := a
      obtain ⟨slot', datum'⟩ := b
      obtain ⟨⟨hfield, hagrees⟩, rfl⟩ := hab
      simp only [Partial.standing, show slot.field = slot'.field from hfield]
      split
      · cases datum with
        | none => exact .free hagrees
        | some d => exact .taken
      · exact ih

theorem sameEntry_fill (h : List.Forall₂ SameEntry p q) (name : String) (d : Datum) :
    List.Forall₂ SameEntry (p.fill name d) (q.fill name d) := by
  induction h with
  | nil => exact .nil
  | @cons a b p q hab hrest ih =>
      obtain ⟨slot, datum⟩ := a
      obtain ⟨slot', datum'⟩ := b
      simp only [Partial.fill, show slot.field = slot'.field from hab.slot.field]
      split
      · exact .cons ⟨hab.slot, rfl⟩ hrest
      · exact .cons hab ih

theorem complete_eq (h : List.Forall₂ SameEntry p q) : p.complete = q.complete := by
  induction h with
  | nil => rfl
  | @cons a b p q hab _ ih =>
      obtain ⟨slot, datum⟩ := a
      obtain ⟨slot', datum'⟩ := b
      obtain ⟨⟨hfield, -⟩, rfl⟩ := hab
      cases datum <;> simp only [Partial.complete, show slot.field = slot'.field from hfield, ih]

theorem toOption_readMembers {depth : Nat} {clock cs rest : List Char} {first : Bool}
    (hfields : List.Forall₂ SameEntry p q) {ms : List (String × Json)}
    (h : MembersRead (nested id depth) rest clock first cs ms) :
    (readMembers p clock first cs).toOption =
      (takeMembers q ms).toOption.map fun data => (data, rest) := by
  induction h generalizing p q with
  | done hnext hclose =>
      cases hcomplete : q.complete <;>
        simp [readMembers, hnext, complete_eq hfields, hcomplete, hclose, takeMembers]
  | @more _ _ _ _ _ _ _ name j ms hnext hcolon hvalue _ ih =>
      have hstanding := sameStanding hfields name
      simp only [readMembers, hnext, takeMembers, toOption_bind, toOption_ok, Option.bind_some]
      generalize p.standing name = s, q.standing name = s' at hstanding
      cases hstanding with
      | taken => simp
      | unknown =>
          have hskip := stepsOver_nested id depth hvalue
          simp [hcolon, hskip, ih hfields]
      | @free read take hagrees =>
          cases hj : (take j).toOption with
          | none => simp [hcolon, hagrees hvalue, hj]
          | some d => simp [hcolon, hagrees hvalue, hj, ih (sameEntry_fill hfields name d)]

end Fields

/-- Taking fields from a list ends well only if no element is left over. -/
def wholly : List Datum × List Json → Option (List Datum)
  | (data, []) => some data
  | (_, _ :: _) => none

theorem wholly_cons (d : Datum) (r : List Datum × List Json) :
    wholly (d :: r.1, r.2) = (wholly r).map (d :: ·) := by
  rcases r with ⟨data, _ | ⟨j, left⟩⟩ <;> rfl

theorem toOption_readPlaces {title : Title} {count index depth : Nat} {first : Bool}
    {slots : List (Slot (Scan Datum))} {slots' : List (Slot Take)}
    (hslots : List.Forall₂ SameSlot slots slots') {clock cs rest : List Char} {items : List Json}
    (h : ElementsRead (nested id depth) rest clock first cs items) :
    (readPlaces title count index first slots cs).toOption =
      ((takePlaces title count index slots' items).toOption.bind wholly).map
        fun data => (data, rest) := by
  induction hslots generalizing index first clock cs items with
  | nil =>
      cases h with
      | done _ hclose => simp [readPlaces, hclose, takePlaces, wholly]
      | more hnext =>
          -- Another element follows, so the list does not end here.
          cases hclose : closeList cs with
          | error e => simp [readPlaces, hclose, takePlaces, wholly]
          | ok left => rw [nextElement_of_closeList hclose] at hnext; cases hnext
  | @cons slot slot' slots slots' hslot hslots ih =>
      have hend := h
      cases h with
      | done hnext hclose =>
          simp only [readPlaces, hnext, takePlaces, ← hslot.field]
          cases slot.field.absence with
          | filled d => simp [ih hend, Option.bind_map, wholly_cons, Function.comp_def]
          | _ => simp
      | @more _ _ _ _ _ _ j items hnext hitem hmore =>
          cases hj : (slot'.reader j).toOption with
          | none => simp [readPlaces, hnext, hslot.agrees hitem, takePlaces, hj]
          | some d =>
              simp [readPlaces, hnext, hslot.agrees hitem, takePlaces, hj, ih hmore,
                Option.bind_map, wholly_cons, Function.comp_def]

theorem agrees_readRecord {title : Title} {slots : List (Slot (Scan Datum))}
    {slots' : List (Slot Take)} (hslots : List.Forall₂ SameSlot slots slots') :
    Agrees (readRecord title slots) (takeRecord title slots') := by
  intro depth cs j rest h
  have hlength := hslots.length_eq
  obtain ⟨inner, hinner, hparsed⟩ := exists_parsed h
  cases hparsed with
  | object hcs hsome hmembers =>
      obtain ⟨depth, rfl⟩ := hinner _ hsome
      have hfields : List.Forall₂ SameEntry (Partial.ofSlots slots) (Partial.ofSlots slots') := by
        simpa only [Partial.ofSlots, List.forall₂_map_left_iff, List.forall₂_map_right_iff]
          using hslots.imp fun _ _ h => ⟨h, rfl⟩
      simp [readRecord, hcs, toOption_readMembers hfields (members_eq_ok_iff.1 hmembers), takeRecord, Function.comp_def]
  | @array tail item items hcs hsome hitems =>
      obtain ⟨depth, rfl⟩ := hinner _ hsome
      simp only [readRecord, hcs, takeRecord, toOption_map, toOption_bind, hlength,
        toOption_readPlaces hslots (elements_eq_ok_iff.1 hitems)]
      cases htaken : takePlaces title slots'.length 0 slots' items with
      | error e => simp
      | ok r =>
          obtain ⟨data, left⟩ := r
          cases left with
          | nil => simp [wholly]
          | cons j left => simp [wholly, throw, throwThe, MonadExceptOf.throw]
  | number hcs hstart hnumber =>
      have hlist := ne_of_startsNumber hstart (d := '[') rfl
      have hobject := ne_of_startsNumber hstart (d := '{') rfl
      simp [readRecord, hcs, takeRecord, hlist, hobject]
  | _ hcs => simp [readRecord, hcs, takeRecord]

/-! ### All shapes -/

mutual

theorem agrees_of : (shape : Shape) → shape.isPlain = true →
    Agrees (textReaders.of shape) (takeDatum shape)
  | .text, _ => agrees_readText
  | .flag, _ => agrees_readFlag
  | .count, _ => agrees_readWhole _ _ _
  | .size, _ => agrees_readWhole _ _ _
  | .real, _ => agrees_readReal
  | .list item, h => agrees_readList (agrees_of item h)
  | .table value, h => agrees_readTable (agrees_of value h)
  | .optional inner, h => agrees_readOptional (agrees_of inner h)
  | .record _ fields, h => agrees_readRecord (sameSlots fields h)
  | .choice _, h => by cases h

theorem sameSlots : (fields : List (Field × Shape)) → fieldsPlain fields = true →
    List.Forall₂ SameSlot (textReaders.slots fields) (valueReaders.slots fields)
  | [], _ => .nil
  | (_, shape) :: fields, h =>
      have h := Bool.and_eq_true_iff.1 h
      .cons ⟨rfl, agrees_of shape h.1⟩ (sameSlots fields h.2)

end

/-! ## Whole texts -/

def parseWritten (s : String) : Except TextError Json := readAll (nested id depthLimit) s

/-- What a shape without choices reads from a text is what it takes from the text's value. -/
theorem toOption_readDatum {shape : Shape} (h : shape.isPlain = true) {s : String} {j : Json}
    (hparse : parseWritten s = .ok j) :
    (readDatum shape s).toOption = (takeDatum shape j).toOption := by
  obtain ⟨rest, hnested, hrest⟩ := readAll_eq_ok_iff.1 hparse
  have hagrees := agrees_of shape h hnested
  ext d
  rw [toOption_eq_some_iff, readDatum, readAll_eq_ok_iff]
  simp only [← toOption_eq_some_iff, hagrees]
  constructor
  · rintro ⟨rest', hd, -⟩
    obtain ⟨e, he, heq⟩ := Option.map_eq_some_iff.1 hd
    cases heq
    exact he
  · intro hd
    exact ⟨rest, by rw [hd, Option.map_some], hrest⟩

end Json

end Dialogue
