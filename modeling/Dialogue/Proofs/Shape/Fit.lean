import Dialogue.Shape.Readers
import Dialogue.Shape.Stored
import Dialogue.Text.Integer
/-!
# Data of a shape

`Fits` says which data have a shape.  Writing and reading such data meets only if the shape itself
can be told apart in writing, which is a check of the shape alone.
-/

namespace Dialogue

/-! ## Sound shapes -/

/-- A field that is left out when it holds nothing must hold nothing when it is left out. -/
def Field.isSound (field : Field) : Bool :=
  !field.hiddenWhenAbsent ||
    match field.absence with
    | .nothing => true
    | .filled .absent => true
    | _ => false

def Shape.isOptional : Shape → Bool
  | .optional _ => true
  | _ => false

mutual

/-- Whether data of the shape can be told apart in writing: the fields of a record have different
names and come back as they were left out, and `null` stands for one thing only. -/
def Shape.isSound : Shape → Bool
  | .list item => item.isSound
  | .table value => value.isSound
  | .optional inner => !inner.isOptional && inner.isSound
  | .record _ fields => decide (fields.map (·.1.name)).Nodup && fieldsSound fields
  | .choice variants => payloadsSound variants
  | _ => true

def fieldsSound : List (Field × Shape) → Bool
  | [] => true
  | (field, shape) :: rest => field.isSound && shape.isSound && fieldsSound rest

def payloadsSound : List (String × Option Shape) → Bool
  | [] => true
  | (_, none) :: rest => payloadsSound rest
  | (_, some shape) :: rest => shape.isSound && payloadsSound rest

end

theorem isSound_of_mem_zip {fields : List (Field × Shape)} (hsound : fieldsSound fields = true)
    {data : List Datum} {pair : (Field × Shape) × Datum} (h : pair ∈ fields.zip data) :
    pair.1.2.isSound = true := by
  induction fields generalizing data with
  | nil => cases h
  | cons entry fields ih =>
      obtain ⟨field, shape⟩ := entry
      simp only [fieldsSound, Bool.and_eq_true] at hsound
      cases data with
      | nil => cases h
      | cons d data =>
          rcases List.mem_cons.1 h with rfl | h
          · exact hsound.1.2
          · exact ih hsound.2 h

theorem isSound_of_lookup {variants : List (String × Option Shape)} {name : String}
    {shape : Shape} (hsound : payloadsSound variants = true)
    (h : variants.lookup name = some (some shape)) : shape.isSound = true := by
  induction variants with
  | nil => cases h
  | cons variant variants ih =>
      obtain ⟨known, payload⟩ := variant
      rw [lookup_entry_cons] at h
      split at h
      · obtain rfl := Option.some.inj h
        simp only [payloadsSound, Bool.and_eq_true] at hsound
        exact hsound.1
      · cases payload with
        | none => exact ih hsound h
        | some other =>
            simp only [payloadsSound, Bool.and_eq_true] at hsound
            exact ih hsound.2 h

/-! ## Data that fits -/

/-- The datum has the shape.  There are no floats among such data, whose text need not lead back to
the same bits. -/
inductive Fits : Shape → Datum → Prop
  | text (s : String) : Fits .text (.text s)
  | flag (b : Bool) : Fits .flag (.flag b)
  | count {n : Int} (hleast : Text.leastCount ≤ n) (hgreatest : n ≤ Text.greatestCount) :
      Fits .count (.whole n)
  | size {n : Nat} (hbound : n < Text.sizeBound) : Fits .size (.whole n)
  | list {item : Shape} {items : List Datum} (hitems : ∀ d ∈ items, Fits item d) :
      Fits (.list item) (.list items)
  | table {value : Shape} {entries : List (String × Datum)}
      (hentries : ∀ entry ∈ entries, Fits value entry.2) : Fits (.table value) (.table entries)
  | absent (inner : Shape) : Fits (.optional inner) .absent
  | present {inner : Shape} {d : Datum} (hinner : Fits inner d) :
      Fits (.optional inner) (.present d)
  | record {title : Title} {fields : List (Field × Shape)} {data : List Datum}
      (hlength : fields.length = data.length)
      (hfields : ∀ pair ∈ fields.zip data, Fits pair.1.2 pair.2) :
      Fits (.record title fields) (.record data)
  | bare {variants : List (String × Option Shape)} {name : String}
      (hname : variants.lookup name = some none) : Fits (.choice variants) (.variant name none)
  | tagged {variants : List (String × Option Shape)} {name : String} {shape : Shape} {d : Datum}
      (hname : variants.lookup name = some (some shape)) (hpayload : Fits shape d) :
      Fits (.choice variants) (.variant name (some d))

class LawfulStored (α : Type) [Stored α] : Prop where
  fits (a : α) : Fits (shapeOf α) (toDatum a)
  ofDatum_toDatum (a : α) : ofDatum (toDatum a) = some a

export LawfulStored (fits ofDatum_toDatum)

attribute [simp] ofDatum_toDatum

instance : LawfulStored String where
  fits s := .text s
  ofDatum_toDatum _ := rfl

instance : LawfulStored Bool where
  fits b := .flag b
  ofDatum_toDatum _ := rfl

instance : LawfulStored Int64 where
  fits n := .count n.le_toInt (Int.le_of_lt_add_one n.toInt_lt)
  ofDatum_toDatum n := congrArg some n.ofInt_toInt

theorem mapM_ofDatum {α : Type} [Stored α] {items : List α}
    (h : ∀ a ∈ items, ofDatum (toDatum a) = some a) :
    (items.map toDatum).mapM ofDatum = some items := by
  induction items with
  | nil => rfl
  | cons a items ih =>
      obtain ⟨ha, hitems⟩ := List.forall_mem_cons.1 h
      simp [ha, ih hitems]

instance {α : Type} [Stored α] [LawfulStored α] : LawfulStored (List α) where
  fits items := .list fun d hd => by
    obtain ⟨a, -, rfl⟩ := List.mem_map.1 hd
    exact fits a
  ofDatum_toDatum _ := mapM_ofDatum fun a _ => ofDatum_toDatum a

instance {α : Type} [Stored α] [LawfulStored α] : LawfulStored (Option α) where
  fits
    | none => .absent (shapeOf α)
    | some a => .present (fits a)
  ofDatum_toDatum
    | none => rfl
    | some a => congrArg (Option.map some) (ofDatum_toDatum a)

theorem entriesOfData_toDatum {α : Type} [Stored α] [LawfulStored α]
    (entries : List (String × α)) :
    entriesOfData (entries.map fun entry => (entry.1, toDatum entry.2)) = some entries := by
  unfold entriesOfData
  induction entries with
  | nil => rfl
  | cons entry entries ih => simp [ih]

theorem fits_entries {α : Type} [Stored α] [LawfulStored α] (entries : List (String × α)) :
    Fits (.table (shapeOf α)) (.table (entries.map fun entry => (entry.1, toDatum entry.2))) :=
  .table fun d hd => by
    obtain ⟨entry, -, rfl⟩ := List.mem_map.1 hd
    exact fits entry.2

instance {α : Type} [Stored α] [LawfulStored α] : LawfulStored (Catalog α) where
  fits c := fits_entries c.entries
  ofDatum_toDatum c := by
    have hentries := congrArg (Option.map Catalog.ofList) (entriesOfData_toDatum c.entries)
    rw [Option.map_some, Catalog.ofList_entries] at hentries
    exact hentries

/-! ## Records while they are read -/

namespace Partial

variable {ρ : Type} {done rest : Partial ρ} {name : String}

theorem standing_append (h : name ∉ done.map (·.1.field.name)) :
    standing name (done ++ rest) = standing name rest := by
  induction done with
  | nil => rfl
  | cons entry done ih =>
      obtain ⟨hne, hdone⟩ := not_or.1 (mt List.mem_cons.2 h)
      simp only [List.cons_append, standing, if_neg (Ne.symm hne), ih hdone]

theorem fill_append (h : name ∉ done.map (·.1.field.name)) (d : Datum) :
    fill name d (done ++ rest) = done ++ fill name d rest := by
  induction done with
  | nil => rfl
  | cons entry done ih =>
      obtain ⟨hne, hdone⟩ := not_or.1 (mt List.mem_cons.2 h)
      rw [List.cons_append, fill, if_neg (Ne.symm hne), ih hdone, List.cons_append]

def datumOf : Slot ρ × Option Datum → Except String Datum
  | (_, some d) => .ok d
  | (slot, none) =>
    match slot.field.absence with
    | .refused => .error slot.field.name
    | .nothing => .ok .absent
    | .filled d => .ok d

theorem complete_eq_mapM (p : Partial ρ) : p.complete = p.mapM datumOf := by
  induction p with
  | nil => rfl
  | cons entry p ih =>
      obtain ⟨slot, datum⟩ := entry
      rw [List.mapM_cons, ← ih]
      cases datum with
      | some d => exact (bind_pure_comp (d :: ·) (complete p)).symm
      | none =>
          simp only [complete, datumOf]
          cases slot.field.absence with
          | refused => rfl
          | nothing => exact (bind_pure_comp (Datum.absent :: ·) (complete p)).symm
          | filled d => exact (bind_pure_comp (d :: ·) (complete p)).symm

/-- A field that was hidden comes back as it was left out. -/
theorem datumOf_hidden {slot : Slot ρ} (hsound : slot.field.isSound = true)
    (hhidden : slot.field.hiddenWhenAbsent = true) : datumOf (slot, none) = .ok .absent := by
  rw [Field.isSound, hhidden, Bool.not_true, Bool.false_or] at hsound
  split at hsound
  next heq => simp only [datumOf, heq]
  next heq => simp only [datumOf, heq]
  next => cases hsound

/-- The fields in `done` are settled and stand for the data.  The other fields have the names, of
which none has been used. -/
structure Settled (done : Partial ρ) (data : List Datum) (names : List String) : Prop where
  nodup : (done.map (·.1.field.name) ++ names).Nodup
  mapM_eq : done.mapM datumOf = .ok data

namespace Settled

variable {data : List Datum} {names : List String} {slot : Slot ρ}

theorem complete_eq (h : Settled done data names) : complete done = .ok data :=
  (complete_eq_mapM done).trans h.mapM_eq

theorem notMem (h : Settled done data (name :: names)) : name ∉ done.map (·.1.field.name) :=
  fun hmem => (List.nodup_append.1 h.nodup).2.2 _ hmem _ List.mem_cons_self rfl

theorem standing_eq (h : Settled done data (slot.field.name :: names)) (rest : Partial ρ) :
    standing slot.field.name (done ++ (slot, none) :: rest) = .free slot.reader := by
  rw [standing_append h.notMem]
  simp only [standing, if_true]

theorem fill_eq (h : Settled done data (slot.field.name :: names)) (d : Datum)
    (rest : Partial ρ) :
    fill slot.field.name d (done ++ (slot, none) :: rest) = done ++ (slot, some d) :: rest := by
  rw [fill_append h.notMem, fill, if_pos rfl]

theorem push {datum : Option Datum} {d : Datum}
    (h : Settled done data (slot.field.name :: names)) (hdatum : datumOf (slot, datum) = .ok d) :
    Settled (done ++ [(slot, datum)]) (data ++ [d]) names where
  nodup := by
    rw [List.map_append, List.append_assoc]
    exact h.nodup
  mapM_eq := by
    rw [List.mapM_append, h.mapM_eq, List.mapM_cons, hdatum]
    rfl

end Settled

end Partial

end Dialogue
