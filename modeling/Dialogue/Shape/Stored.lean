import Dialogue.Catalog
import Dialogue.Shape.Basic
/-!
# Stored types

A type is stored when it has a shape and conversions to and from the data of that shape. The types
of single values, lists and catalogs are stored here; records say only what their fields are.
-/

namespace Dialogue

/-- A type whose values can be read and written. -/
class Stored (α : Type) where
  shape : Shape
  toDatum : α → Datum
  /-- The value of a datum of the shape. -/
  ofDatum : Datum → Option α

export Stored (toDatum ofDatum)

def shapeOf (α : Type) [Stored α] : Shape := Stored.shape α

instance : Stored String where
  shape := .text
  toDatum := .text
  ofDatum
    | .text s => some s
    | _ => none

instance : Stored Bool where
  shape := .flag
  toDatum := .flag
  ofDatum
    | .flag b => some b
    | _ => none

instance : Stored Int64 where
  shape := .count
  toDatum n := .whole n.toInt
  ofDatum
    | .whole n => some (Int64.ofInt n)
    | _ => none

instance : Stored Nat where
  shape := .size
  toDatum n := .whole n
  ofDatum
    | .whole n => some n.toNat
    | _ => none

instance : Stored Float where
  shape := .real
  toDatum := .real
  ofDatum
    | .real x => some x
    | _ => none

instance {α : Type} [Stored α] : Stored (List α) where
  shape := .list (shapeOf α)
  toDatum items := .list (items.map toDatum)
  ofDatum
    | .list items => items.mapM ofDatum
    | _ => none

instance {α : Type} [Stored α] : Stored (Option α) where
  shape := .optional (shapeOf α)
  toDatum
    | none => .absent
    | some a => .present (toDatum a)
  ofDatum
    | .absent => some none
    | .present d => (ofDatum d).map some
    | _ => none

def entriesOfData {α : Type} [Stored α] (entries : List (String × Datum)) :
    Option (List (String × α)) :=
  entries.mapM fun entry => (ofDatum entry.2).map fun value => (entry.1, value)

instance {α : Type} [Stored α] : Stored (Catalog α) where
  shape := .table (shapeOf α)
  toDatum c := .table (c.entries.map fun entry => (entry.1, toDatum entry.2))
  ofDatum
    | .table entries => (entriesOfData entries).map Catalog.ofList
    | _ => none

/-- The shape of a choice between names without payload. -/
def namesShape (names : List String) : Shape := .choice (names.map fun name => (name, none))

end Dialogue
