import Dialogue.Shape.Basic
/-!
# Readers of shapes

A text format says how each kind of shape is read, given the readers of the shape's parts; from that
follows how every shape is read. While a record is read, its fields are filled one by one.
-/

namespace Dialogue

/-- A field of a record with the reader of its value. -/
structure Slot (ρ : Type) where
  field : Field
  reader : ρ

/-- What stands behind the name of a choice's variant. -/
inductive Payload (ρ : Type) where
  | nothing
  | single (reader : ρ)
  /-- The fields of a record that is named by the variant. -/
  | fields (title : Title) (slots : List (Slot ρ))

/-- A variant of a choice, with the readers of what stands behind its name. -/
structure Alternative (ρ : Type) where
  name : String
  payload : Payload ρ

/-- How a format reads each kind of shape. -/
structure Readers (ρ : Type) where
  text : ρ
  flag : ρ
  count : ρ
  size : ρ
  real : ρ
  list : ρ → ρ
  table : ρ → ρ
  optional : ρ → ρ
  record : Title → List (Slot ρ) → ρ
  choice : List (Alternative ρ) → ρ

namespace Readers

variable {ρ : Type}

mutual

def of (readers : Readers ρ) : Shape → ρ
  | .text => readers.text
  | .flag => readers.flag
  | .count => readers.count
  | .size => readers.size
  | .real => readers.real
  | .list item => readers.list (readers.of item)
  | .table value => readers.table (readers.of value)
  | .optional inner => readers.optional (readers.of inner)
  | .record title fields => readers.record title (readers.slots fields)
  | .choice variants => readers.choice (readers.alternatives variants)

def slots (readers : Readers ρ) : List (Field × Shape) → List (Slot ρ)
  | [] => []
  | (field, shape) :: rest => ⟨field, readers.of shape⟩ :: readers.slots rest

/-- The variants of a choice with the readers of what stands behind their names. -/
def alternatives (readers : Readers ρ) : List (String × Option Shape) → List (Alternative ρ)
  | [] => []
  | (name, none) :: rest => ⟨name, .nothing⟩ :: readers.alternatives rest
  | (name, some (.record (.variant choice variant) fields)) :: rest =>
    ⟨name, .fields (.variant choice variant) (readers.slots fields)⟩ :: readers.alternatives rest
  | (name, some shape) :: rest => ⟨name, .single (readers.of shape)⟩ :: readers.alternatives rest

end

end Readers

/-- A record's fields while it is read: those read so far have a datum. -/
abbrev Partial (ρ : Type) := List (Slot ρ × Option Datum)

/-- What a record's fields say about a name. -/
inductive Standing (ρ : Type) where
  | unknown
  | taken
  | free (reader : ρ)

namespace Partial

variable {ρ : Type}

def ofSlots (slots : List (Slot ρ)) : Partial ρ := slots.map fun slot => (slot, none)

def standing (name : String) : Partial ρ → Standing ρ
  | [] => .unknown
  | (slot, datum) :: rest =>
    if slot.field.name = name then
      match datum with
      | some _ => .taken
      | none => .free slot.reader
    else standing name rest

def fill (name : String) (value : Datum) : Partial ρ → Partial ρ
  | [] => []
  | (slot, datum) :: rest =>
    if slot.field.name = name then (slot, some value) :: rest
    else (slot, datum) :: fill name value rest

/-- The data of all fields, with what stands in for those that were left out. The error is the name
of the first field that may not be left out. -/
def complete : Partial ρ → Except String (List Datum)
  | [] => .ok []
  | (_, some d) :: rest => (complete rest).map (d :: ·)
  | (slot, none) :: rest =>
    match slot.field.absence with
    | .refused => .error slot.field.name
    | .nothing => (complete rest).map (.absent :: ·)
    | .filled d => (complete rest).map (d :: ·)

end Partial

end Dialogue
