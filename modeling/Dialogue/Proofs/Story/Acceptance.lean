import Dialogue.Proofs.Json.Readers
import Dialogue.Story.Loading
import Mathlib.Data.List.Nodup
/-!
# What is accepted as a tree

A record is read from an object or from the list of its fields, and from nothing else.  So a text
that is no list is accepted as a tree only if it holds an object with a start and with nodes.  A list
is accepted as well if it holds the four fields of a tree in their order.
-/

namespace Dialogue

namespace Json

/-! ## Outlines -/

/-- What a text holds at the top: the kinds of the elements of a list or of the members of an object,
or only the kind of what is neither. -/
inductive Outline where
  | plain (kind : Kind)
  | array (items : List Kind)
  | object (members : List (String × Kind))
  deriving DecidableEq

def outlineScan : Scan Outline := fun cs =>
  match skipGaps cs with
  | '[' :: rest => (elements outlined rest true rest).map fun r => (.array r.1, r.2)
  | '{' :: rest => (members outlined rest true rest).map fun r => (.object r.1, r.2)
  | cs => (outlined cs).map fun r => (.plain r.1, r.2)

/-- The outline of a JSON text. Only white space may stand behind its value. -/
def outline (s : String) : Except TextError Outline := readAll outlineScan s

/-! ## Records -/

variable {slots : List (Slot (Scan Datum))}

def Outline.IsRecordObject (slots : List (Slot (Scan Datum))) : Outline → Prop
  | .object ms => ∀ slot ∈ slots, slot.field.absence = .refused →
      ∃ found ∈ slots, found.field.name = slot.field.name ∧
        ∃ kind, (slot.field.name, kind) ∈ ms ∧ Accepts found.reader kind
  | _ => False

/-- The outline is a list of the fields in their order. Fields at its end are missing only if they may
be left out. -/
def Outline.IsRecordList (slots : List (Slot (Scan Datum))) : Outline → Prop
  | .array kinds => ∃ placed left, slots = placed ++ left ∧
      List.Forall₂ (fun slot kind => Accepts slot.reader kind) placed kinds ∧
      ∀ slot ∈ left, slot.field.absence ≠ .refused
  | _ => False

theorem exists_outlineScan_of_readRecord {title : Title} {cs rest : List Char} {d : Datum}
    (hslots : ∀ slot ∈ slots, StepsOver slot.reader)
    (h : readRecord title slots cs = .ok (d, rest)) :
    ∃ o, outlineScan cs = .ok (o, rest) ∧ (o.IsRecordObject slots ∨ o.IsRecordList slots) := by
  unfold readRecord at h
  split at h
  next tail hcs =>
    obtain ⟨⟨data, _⟩, hmembers, heq⟩ := exists_of_map_eq_ok h
    cases heq
    obtain ⟨ms, hms, hfields⟩ := exists_members_of_readMembers
      (by simpa [Partial.ofSlots] using hslots) hmembers
    refine ⟨.object ms, ?_, .inl fun slot hslot hrefused => ?_⟩
    · rw [outlineScan, hcs]
      simp only [members_eq_ok_iff.2 hms]
      rfl
    · simpa [Partial.ofSlots] using hfields slot (List.mem_map.2 ⟨slot, hslot, rfl⟩) hrefused
  next tail hcs =>
    obtain ⟨⟨data, _⟩, hplaces, heq⟩ := exists_of_map_eq_ok h
    cases heq
    obtain ⟨kinds, hkinds, hplaced⟩ :=
      exists_elements_of_readPlaces hslots (Nat.le_refl _) hplaces
    refine ⟨.array kinds, ?_, .inr hplaced⟩
    rw [outlineScan, hcs]
    simp only [elements_eq_ok_iff.2 hkinds]
    rfl
  next => exact absurd h mismatch_ne_ok

theorem exists_outline_of_readDatum {title : Title} {fields : List (Field × Shape)} {s : String}
    {d : Datum} (h : readDatum (.record title fields) s = .ok d) :
    ∃ o, outline s = .ok o ∧
      (o.IsRecordObject (textReaders.slots fields) ∨ o.IsRecordList (textReaders.slots fields)) := by
  obtain ⟨rest, hread, hrest⟩ := readAll_eq_ok_iff.1 h
  obtain ⟨o, ho, hrecord⟩ := exists_outlineScan_of_readRecord (stepsOver_slots fields) hread
  exact ⟨o, readAll_eq_ok_iff.2 ⟨rest, ho, hrest⟩, hrecord⟩

theorem Outline.exists_member_of_isRecordObject {ms : List (String × Kind)}
    (h : (Outline.object ms).IsRecordObject slots) (hnames : (slots.map (·.field.name)).Nodup)
    (slot : Slot (Scan Datum)) (hslot : slot ∈ slots) (hrefused : slot.field.absence = .refused) :
    ∃ kind, (slot.field.name, kind) ∈ ms ∧ Accepts slot.reader kind := by
  obtain ⟨found, hfound, hname, hmember⟩ := h slot hslot hrefused
  rwa [List.inj_on_of_nodup_map hnames hfound hslot hname] at hmember

theorem kind_of_accepts_readText {kind : Kind} (h : Accepts readText kind) : kind = .text := by
  obtain ⟨cs, r, hread, rfl⟩ := h
  unfold readText at hread
  split at hread
  next hcs => rw [hcs, kindOf]
  next => exact absurd hread mismatch_ne_ok

theorem kind_of_accepts_readTable {value : Scan Datum} {kind : Kind}
    (h : Accepts (readTable value) kind) : kind = .object := by
  obtain ⟨cs, r, hread, rfl⟩ := h
  unfold readTable at hread
  split at hread
  next hcs => rw [hcs, kindOf]
  next => exact absurd hread mismatch_ne_ok

def Outline.IsTreeObject (o : Outline) : Prop :=
  ∃ ms, o = .object ms ∧ ("startNodeId", Kind.text) ∈ ms ∧ ("nodes", Kind.object) ∈ ms

end Json

namespace Tree

open Json

theorem toOption_ofJsonText (text : String) :
    (ofJsonText text).toOption = (readDatum (shapeOf Tree) text).toOption.bind ofDatum := by
  rw [ofJsonText, toOption_mapError, toOption_readPlaced]

/-- What is accepted as a tree is an object with a start and with nodes, or else the list of a tree's
four fields. -/
theorem outline_of_ofJsonText {text : String} {t : Tree} (h : ofJsonText text = .ok t) :
    (∃ o, outline text = .ok o ∧ o.IsTreeObject) ∨
      outline text = .ok (.array [.text, .object, .text, .object]) := by
  rw [← toOption_eq_some_iff, toOption_ofJsonText] at h
  obtain ⟨d, hread, -⟩ := Option.bind_eq_some_iff.1 h
  obtain ⟨o, ho, hobject | hlist⟩ :=
    exists_outline_of_readDatum (toOption_eq_some_iff.1 hread)
  · refine .inl ⟨o, ho, ?_⟩
    cases o with
    | object ms =>
        have hmember := Outline.exists_member_of_isRecordObject hobject (by decide)
        obtain ⟨kind, hstart, haccepts⟩ := hmember _ (.tail _ (.tail _ (.head _))) rfl
        obtain rfl := kind_of_accepts_readText haccepts
        obtain ⟨kind, hnodes, haccepts⟩ := hmember _ (.tail _ (.tail _ (.tail _ (.head _)))) rfl
        obtain rfl := kind_of_accepts_readTable haccepts
        exact ⟨ms, rfl, hstart, hnodes⟩
    | _ => cases hobject
  · cases o with
    | array kinds =>
        obtain ⟨placed, left, heq, hplaced, hleft⟩ := hlist
        obtain rfl : left = [] := by
          -- The nodes are the last field, and they may not be left out.
          rcases List.eq_nil_or_concat left with rfl | ⟨init, last, rfl⟩
          · rfl
          · have hlast := congrArg List.getLast? heq
            rw [List.concat_eq_append, ← List.append_assoc, List.getLast?_concat] at hlast
            exact absurd (Option.some.inj hlast ▸ rfl) (hleft last (by simp))
        rw [List.append_nil] at heq
        subst heq
        obtain _ | ⟨hname, _ | ⟨hcharacters, _ | ⟨hstart, _ | ⟨hnodes, _ | _⟩⟩⟩⟩ := hplaced
        rw [ho, kind_of_accepts_readText hname, kind_of_accepts_readTable hcharacters,
          kind_of_accepts_readText hstart, kind_of_accepts_readTable hnodes]
        exact .inr rfl
    | _ => cases hlist

/-- A tree with a member of another name, whose value is a number out of range. -/
def flareText : String :=
  "\x7b\"startNodeId\": \"a\", \"nodes\": \x7b\x7d, \"x\": 1e999\x7d"

theorem outline_of_ofJsonText_at_flare :
    (∃ t, ofJsonText flareText = .ok t) ∧ ∃ o, outline flareText = .ok o ∧ o.IsTreeObject := by
  obtain ⟨t, ht⟩ := exists_of_isSome_toOption (x := ofJsonText flareText) (by decide +kernel)
  have houtline : outline flareText =
      .ok (.object [("startNodeId", .text), ("nodes", .object), ("x", .number)]) :=
    toOption_eq_some_iff.1 (by decide +kernel)
  refine ⟨⟨t, ht⟩, (outline_of_ofJsonText ht).resolve_right fun hlist => ?_⟩
  rw [houtline] at hlist
  cases hlist

/-- A list is read as a tree, although it is no object. -/
theorem not_isTreeObject_of_ofJsonText :
    ¬ ∀ text t, ofJsonText text = .ok t → ∃ o, outline text = .ok o ∧ o.IsTreeObject := by
  intro h
  have hread : ofJsonText "[\"\", \x7b\x7d, \"a\", \x7b\x7d]" = .ok ⟨"", .empty, "a", .empty⟩ :=
    toOption_eq_some_iff.1 (by decide +kernel)
  have houtline : outline "[\"\", \x7b\x7d, \"a\", \x7b\x7d]" =
      .ok (.array [.text, .object, .text, .object]) := toOption_eq_some_iff.1 (by decide +kernel)
  obtain ⟨o, ho, ms, rfl, -⟩ := h _ _ hread
  rw [houtline] at ho
  cases ho

end Tree

end Dialogue
