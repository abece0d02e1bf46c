import Dialogue.Proofs.Json.RoundTrip
import Dialogue.Story.Loading
/-!
# Saving a tree loses nothing

Every part of a tree fits its shape and is taken back from its data, so a tree is read back from the
text it was saved as: the order of its entries, lists that were not written and lists that were
written empty, and comparison signs that are not known.
-/

namespace Dialogue

/-! ## Parts of a tree -/

instance : LawfulStored Comparison where
  fits c := .text c.sign
  ofDatum_toDatum c := congrArg some (Comparison.ofSign_sign c)

instance : LawfulStored Condition where
  fits c := .record rfl (by simp [fits])
  ofDatum_toDatum c := by
    change Option.bind (ofDatum (toDatum _)) _ = _
    simp

instance : LawfulStored Gate where
  fits g := .record rfl (by simp [fits])
  ofDatum_toDatum g := by
    change Option.bind (ofDatum (toDatum _)) _ = _
    simp

instance : LawfulStored Operation where
  fits operation := .text operation.name
  ofDatum_toDatum operation := congrArg some (Operation.ofName_name operation)

instance : LawfulStored Adjustment where
  fits a := .record rfl (by simp [fits])
  ofDatum_toDatum a := by
    change Option.bind (ofDatum (toDatum _)) _ = _
    simp

instance : LawfulStored FlagChanges where
  fits c := .record rfl (by simp [fits])
  ofDatum_toDatum c := by
    change Option.bind (ofDatum (toDatum _)) _ = _
    simp

instance : LawfulStored Detour where
  fits d := .record rfl (by simp [fits])
  ofDatum_toDatum d := by
    change Option.bind (ofDatum (toDatum _)) _ = _
    simp

instance : LawfulStored Exit where
  fits e := .record rfl (by simp [fits])
  ofDatum_toDatum e := by
    change Option.bind (ofDatum (toDatum _)) _ = _
    simp

instance : LawfulStored Choice where
  fits c := .record rfl (by simp [fits])
  ofDatum_toDatum c := by
    change Option.bind (ofDatum (toDatum _)) _ = _
    simp

instance : LawfulStored Character where
  fits c := .record rfl (by simp [fits])
  ofDatum_toDatum c := by
    change Option.bind (ofDatum (toDatum _)) _ = _
    simp

instance : LawfulStored Variation where
  fits v := .record rfl (by simp [fits])
  ofDatum_toDatum v := by
    change Option.bind (ofDatum (toDatum _)) _ = _
    simp

instance : LawfulStored Node where
  fits n := .record rfl (by simp [fits])
  ofDatum_toDatum n := by
    change Option.bind (ofDatum (toDatum _)) _ = _
    simp

instance : LawfulStored Tree where
  fits t := .record rfl (by simp [fits])
  ofDatum_toDatum t := by
    change Option.bind (ofDatum (toDatum _)) _ = _
    simp

/-! ## Trees -/

namespace Tree

theorem isSound_shape : (shapeOf Tree).isSound = true := by decide +kernel

/-- A tree is read back as it was saved, and saving it once more gives the same text. -/
theorem ofJsonText_toJsonText (t : Tree) :
    ofJsonText t.toJsonText = .ok t ∧
      (ofJsonText t.toJsonText).map toJsonText = .ok t.toJsonText := by
  have hread : ofJsonText t.toJsonText = .ok t := by
    rw [ofJsonText, toJsonText, Json.readPlaced_writePretty isSound_shape]
    rfl
  refine ⟨hread, ?_⟩
  rw [hread]
  rfl

end Tree

end Dialogue
