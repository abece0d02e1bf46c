/-!
# Shapes of data

A shape says what data looks like wherever it is stored: which fields a record has and in what
order, what a missing field stands for, which names a choice has. Readers and writers of the text
formats work from shapes alone, so each kind of record is described once. What they read and write
is a `Datum`.
-/

namespace Dialogue

/-- Data without field names. A record holds its fields in the order of its shape. -/
inductive Datum where
  | text (s : String)
  | flag (b : Bool)
  | whole (n : Int)
  | real (x : Float)
  | list (items : List Datum)
  | table (entries : List (String × Datum))
  | absent
  | present (d : Datum)
  | record (fields : List Datum)
  | variant (name : String) (payload : Option Datum)
  deriving Inhabited

/-- What a record without a given field holds in its place. -/
inductive Absence where
  /-- The field must be there. -/
  | refused
  /-- A named field may be left out and then holds nothing; a place in a sequence may not. -/
  | nothing
  /-- The field holds this datum. -/
  | filled (d : Datum)

/-- A field of a record. -/
structure Field where
  name : String
  absence : Absence
  /-- Whether the field is left out of the written form when it holds nothing. -/
  hiddenWhenAbsent : Bool

/-- What a record is called. -/
inductive Title where
  | record (name : String)
  /-- The payload of a choice's variant. -/
  | variant (choice name : String)
  deriving DecidableEq

/-- What a datum looks like. -/
inductive Shape where
  | text
  | flag
  /-- A whole number of 64 bits with a sign. -/
  | count
  /-- A whole number of 64 bits without a sign. -/
  | size
  | real
  | list (item : Shape)
  /-- Values under text keys in the order in which the keys first appear. A repeated key replaces
  the value in its place. -/
  | table (value : Shape)
  | optional (inner : Shape)
  | record (title : Title) (fields : List (Field × Shape))
  /-- One of several names, each with a payload or none. -/
  | choice (variants : List (String × Option Shape))

def Field.required (name : String) : Field := ⟨name, .refused, false⟩

def Field.defaulting (name : String) (d : Datum) : Field := ⟨name, .filled d, false⟩

/-- An optional field that is left out when it holds nothing. -/
def Field.hidden (name : String) : Field := ⟨name, .filled .absent, true⟩

def Field.nullable (name : String) : Field := ⟨name, .nothing, false⟩

end Dialogue
