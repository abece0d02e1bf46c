import Dialogue.Play.Form
import Dialogue.Proofs.Json.RoundTrip
import Dialogue.Proofs.Play.Step
/-!
# Parking a session is invisible

A snapshot is written down and read back later, and the session goes on from there as if nothing had
happened.  Flags and counters have no order of their own, so they may be written in any order.
-/

namespace Dialogue

theorem Json.writeFields_required (name : String) (shape : Shape) (fields : List (Field × Shape))
    (d : Datum) (data : List Datum) :
    writeFields ((.required name, shape) :: fields) (d :: data) =
      (name, writeDatum shape d) :: writeFields fields data := by
  cases d <;> simp [writeFields, isLeftOut, Field.required]

/-! ## Parts of a snapshot -/

instance : LawfulStored Ending where
  fits
    | .exit status => .tagged rfl (.record rfl (by simp [fits]))
    | .missingTarget node => .tagged rfl (.record rfl (by simp [fits]))
  ofDatum_toDatum
    | .exit status => congrArg (Option.map Ending.exit) (ofDatum_toDatum status)
    | .missingTarget node => congrArg (Option.map Ending.missingTarget) (ofDatum_toDatum node)

instance : LawfulStored Status where
  fits
    | .active => .bare rfl
    | .ended ending => .tagged rfl (fits ending)
  ofDatum_toDatum
    | .active => rfl
    | .ended ending => congrArg (Option.map Status.ended) (ofDatum_toDatum ending)

instance : LawfulStored Markup.Span where
  fits s := .record rfl (by simp [fits])
  ofDatum_toDatum s := by
    change Option.bind (ofDatum (toDatum _)) _ = _
    simp

instance : LawfulStored Message where
  fits m := .record rfl (by simp [fits])
  ofDatum_toDatum m := by
    change Option.bind (ofDatum (toDatum _)) _ = _
    simp

theorem Flags.ofList_perm {f : Flags} {names : List String} (h : names.Perm f.toList) :
    ofList names = f := by
  have hentries : (f.toList.map fun name => (name, ())) = f.names.entries := by
    rw [toList, SortedMap.keys, List.map_map]
    exact List.map_id f.names.entries
  have hperm := h.map fun name => (name, ())
  rw [hentries] at hperm
  exact congrArg Flags.mk (SortedMap.ofList_perm hperm)

theorem Counters.ofList_perm {c : Counters} {entries : List (String × Int64)}
    (h : entries.Perm c.toList) : ofList entries = c :=
  congrArg Counters.mk (SortedMap.ofList_perm h)

/-! ## Snapshots -/

namespace Snapshot

/-- The JSON of a snapshot, with its flags and its counters in some order. -/
def inOrder (s : Snapshot) (flags : List String) (counters : List (String × Int64)) : Json :=
  .object
    [("current_node_id", .text s.node), ("flags", .texts flags),
     ("state", .object (counters.map fun entry => (entry.1, .whole entry.2.toInt))),
     ("transcript", Json.write s.transcript), ("status", Json.write s.status)]

def IsWritten (s : Snapshot) (text : String) : Prop :=
  ∃ flags counters, flags.Perm s.world.flags.toList ∧ counters.Perm s.world.counters.toList ∧
    (text = (s.inOrder flags counters).compact ∨ text = (s.inOrder flags counters).pretty)

def datumInOrder (s : Snapshot) (flags : List String) (counters : List (String × Int64)) : Datum :=
  .record
    [toDatum s.node, toDatum flags, .table (counters.map fun entry => (entry.1, toDatum entry.2)),
     toDatum s.transcript, toDatum s.status]

variable {s : Snapshot} {flags : List String} {counters : List (String × Int64)}

theorem writeDatum_datumInOrder :
    Json.writeDatum (shapeOf Snapshot) (s.datumInOrder flags counters) =
      s.inOrder flags counters := by
  have hflags : Json.writeDatum (shapeOf Flags) (toDatum flags) = .texts flags := by
    change Json.array ((flags.map Datum.text).map (Json.writeDatum .text)) = _
    rw [List.map_map, Json.texts]
    rfl
  have hcounters : Json.writeDatum (shapeOf Counters)
      (.table (counters.map fun entry => (entry.1, toDatum entry.2))) =
        .object (counters.map fun entry => (entry.1, .whole entry.2.toInt)) := by
    change Json.object ((counters.map _).map _) = _
    rw [List.map_map]
    rfl
  change Json.object (Json.writeFields (_ :: _ :: _ :: _ :: _ :: []) _) = _
  simp only [Json.writeFields_required, hflags, hcounters]
  rfl

theorem fits_datumInOrder : Fits (shapeOf Snapshot) (s.datumInOrder flags counters) := by
  have hflags : Fits (shapeOf Flags) (toDatum flags) := fits flags
  have hcounters := fits_entries counters
  exact .record rfl (by simp [fits, hflags]; exact hcounters)

theorem ofDatum_datumInOrder (hflags : flags.Perm s.world.flags.toList)
    (hcounters : counters.Perm s.world.counters.toList) :
    ofDatum (s.datumInOrder flags counters) = some s := by
  have hread : ofDatum (.table (counters.map fun entry => (entry.1, toDatum entry.2))) =
      some s.world.counters := by
    change (entriesOfData _).map Counters.ofList = _
    rw [entriesOfData_toDatum, Option.map_some, Counters.ofList_perm hcounters]
  -- Flags and counters are put in order again; the other parts come back as they were.
  change Option.bind (ofDatum (toDatum s.node)) (fun _ =>
    ((ofDatum (toDatum flags)).map Flags.ofList).bind fun _ => Option.bind (ofDatum _) _) = _
  simp [hread, Flags.ofList_perm hflags]

theorem isWritten_writeCompact (s : Snapshot) : s.IsWritten (Json.writeCompact s) := by
  refine ⟨s.world.flags.toList, s.world.counters.toList, .refl _, .refl _, .inl ?_⟩
  rw [← writeDatum_datumInOrder]
  rfl

theorem isSound_shape : (shapeOf Snapshot).isSound = true := by decide +kernel

theorem read_of_isWritten {s : Snapshot} {text : String} (h : s.IsWritten text) :
    Json.read Snapshot text = .ok s := by
  obtain ⟨flags, counters, hflags, hcounters, htext⟩ := h
  have hd := ofDatum_datumInOrder hflags hcounters
  have hread : Json.readPlaced Snapshot text = .ok s := by
    rw [← writeDatum_datumInOrder] at htext
    rcases htext with rfl | rfl
    · exact Json.readPlaced_chars Json.Spacing.isBlank_compact isSound_shape fits_datumInOrder hd
    · exact Json.readPlaced_chars Json.Spacing.isBlank_pretty isSound_shape fits_datumInOrder hd
  rw [Json.read, hread]
  rfl

end Snapshot

/-! ## Sessions -/

namespace Session

theorem resume_snapshot_run (s : Session) (ops : List Op) :
    resume s.tree s.config (s.run ops).2.snapshot = (s.run ops).2 := by
  obtain ⟨htree, hconfig⟩ := frame_run s ops
  rw [resume, ← htree, ← hconfig]

/-- Wherever a run is interrupted, every written form of the snapshot there leads back to it, and the
session that is taken up again goes on like the one that was never parked. -/
theorem parking_is_invisible (s : Session) (before later : List Op) :
    let parked := (s.run before).2.snapshot
    parked.IsWritten (Json.writeCompact parked) ∧
      ∀ text, parked.IsWritten text →
        ∃ found, Json.read Snapshot text = .ok found ∧ found = parked ∧
          let resumed := resume s.tree s.config found
          (s.run (before ++ later)).1 = (s.run before).1 ++ (resumed.run later).1 ∧
            (s.run (before ++ later)).2.offers = (resumed.run later).2.offers ∧
            (s.run (before ++ later)).2.snapshot = (resumed.run later).2.snapshot := by
  intro parked
  refine ⟨Snapshot.isWritten_writeCompact parked, fun text htext => ?_⟩
  refine ⟨parked, Snapshot.read_of_isWritten htext, rfl, ?_⟩
  intro resumed
  have hresumed : resumed = (s.run before).2 := resume_snapshot_run s before
  rw [hresumed, run_append]
  exact ⟨rfl, rfl, rfl⟩

end Session

end Dialogue
