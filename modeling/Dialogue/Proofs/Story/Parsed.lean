import Dialogue.Proofs.Json.Sorting
import Dialogue.Proofs.Story.Acceptance
import Dialogue.Proofs.Story.Reordering
/-!
# Trees of parsed values

A tree is read from text as it is written, and from a parsed value in the order of the keys.  Of a text
that parses and repeats no key, both read a tree or neither does, and what is read from the parsed value
is the tree of the text with its characters, portraits and nodes in the order of their keys.
-/

namespace Dialogue

/-! ## Sorted trees -/

namespace Catalog

variable {α β : Type}

def IsSorted (c : Catalog α) : Prop := c.entries.Pairwise fun a b => a.1 < b.1

def sortedWith (f : α → β) (c : Catalog α) : Catalog β where
  entries := (SortedMap.ofList (c.entries.map fun e => (e.1, f e.2))).entries
  nodup := (SortedMap.ofList _).nodup_keys

theorem entries_sortedWith (f : α → β) (c : Catalog α) :
    (c.sortedWith f).entries = (SortedMap.ofList (c.entries.map fun e => (e.1, f e.2))).entries :=
  rfl

theorem perm_entries_sortedWith (f : α → β) (c : Catalog α) :
    (c.entries.map fun e => (e.1, f e.2)).Perm (c.sortedWith f).entries :=
  SortedMap.perm_entries_ofList (by simpa [Function.comp_def] using c.nodup)

theorem get?_sortedWith (f : α → β) (c : Catalog α) (key : String) :
    (c.sortedWith f).get? key = (c.get? key).map f := by
  ext value
  rw [get?_eq_some_iff, ← (c.perm_entries_sortedWith f).mem_iff, List.mem_map,
    Option.map_eq_some_iff]
  simp only [get?_eq_some_iff, Prod.mk.injEq, Prod.exists]
  constructor
  · rintro ⟨key, a, hmem, rfl, rfl⟩
    exact ⟨a, hmem, rfl⟩
  · rintro ⟨a, hmem, rfl⟩
    exact ⟨key, a, hmem, rfl, rfl⟩

theorem IsSorted.sortedWith_eq {c : Catalog α} (h : c.IsSorted) {f : α → α}
    (hf : ∀ e ∈ c.entries, f e.2 = e.2) : c.sortedWith f = c := by
  have hsame : (c.entries.map fun e => (e.1, f e.2)) = c.entries.map id :=
    List.map_congr_left fun e he => Prod.ext rfl (hf e he)
  refine ext_entries (SortedMap.entries_ofList_of_perm h ?_)
  rw [hsame, List.map_id]

theorem entries_ofList_of_nodup {entries : List (String × α)} (h : (entries.map (·.1)).Nodup) :
    (ofList entries).entries = entries :=
  entries_foldl_insert empty h

theorem ofList_eq_sortedWith {f : α → β} {entries : List (String × α)}
    {sorted : List (String × β)} (hkeys : (entries.map (·.1)).Nodup)
    (hperm : (entries.map fun e => (e.1, f e.2)).Perm sorted)
    (hsorted : sorted.Pairwise fun a b => a.1 < b.1) :
    ofList sorted = (ofList entries).sortedWith f := by
  refine ext_entries ?_
  rw [entries_ofList_of_nodup (SortedMap.nodup_keys ⟨sorted, hsorted⟩),
    entries_sortedWith, entries_ofList_of_nodup hkeys, SortedMap.entries_ofList_of_perm hsorted hperm]

end Catalog

def Character.sorted (c : Character) : Character := { c with portraits := c.portraits.sortedWith id }

def Tree.sorted (t : Tree) : Tree where
  name := t.name
  characters := t.characters.sortedWith Character.sorted
  start := t.start
  nodes := t.nodes.sortedWith id

structure Tree.IsSorted (t : Tree) : Prop where
  nodes : t.nodes.IsSorted
  characters : t.characters.IsSorted
  portraits : ∀ e ∈ t.characters.entries, e.2.portraits.IsSorted

theorem Character.sameUpToOrder_sorted (c : Character) : c.SameUpToOrder c.sorted where
  name := rfl
  defaultEmotion := rfl
  portraits emotion := by rw [sorted, Catalog.get?_sortedWith, Option.map_id, id_eq]

theorem Tree.sameUpToOrder_sorted (t : Tree) : t.SameUpToOrder t.sorted where
  name := rfl
  start := rfl
  nodes id := by rw [node?, sorted, Catalog.get?_sortedWith, Option.map_id, id_eq, node?]
  characters id := by
    rw [character?, character?, sorted, Catalog.get?_sortedWith]
    cases t.characters.get? id with
    | none => exact .none
    | some c => exact .some c.sameUpToOrder_sorted

theorem Tree.IsSorted.sorted_eq {t : Tree} (h : t.IsSorted) : t.sorted = t := by
  have hcharacters : t.characters.sortedWith Character.sorted = t.characters :=
    h.characters.sortedWith_eq fun e he => by
      rw [Character.sorted, (h.portraits e he).sortedWith_eq fun _ _ => rfl]
  rw [Tree.sorted, hcharacters, h.nodes.sortedWith_eq fun _ _ => rfl]

/-! ## Stored data -/

def IsImage {α : Type} [Stored α] (f : α → α) (d e : Datum) : Prop :=
  (ofDatum e : Option α) = (ofDatum d).map f

theorem isImage_id {α : Type} [Stored α] {d : Datum} : IsImage (id : α → α) d d :=
  (congrFun Option.map_id _).symm

section Tables

variable {α : Type} [Stored α] {f : α → α}

theorem entriesOfData_image {entries related : List (String × Datum)}
    (h : List.Forall₂ (fun a b => a.1 = b.1 ∧ IsImage f a.2 b.2) entries related) :
    (entriesOfData related : Option (List (String × α))) =
      (entriesOfData entries).map fun es => es.map fun e => (e.1, f e.2) := by
  induction h with
  | nil => rfl
  | @cons a b entries related hab _ ih =>
      unfold entriesOfData at ih ⊢
      rw [List.mapM_cons, List.mapM_cons, ih, ← hab.1,
        show (ofDatum b.2 : Option α) = (ofDatum a.2).map f from hab.2]
      cases (ofDatum a.2 : Option α) with
      | none => rfl
      | some value =>
          cases entries.mapM fun e => (ofDatum e.2 : Option α).map fun value => (e.1, value) <;> rfl

theorem map_fst_entriesOfData {entries : List (String × Datum)} {es : List (String × α)}
    (h : entriesOfData entries = some es) : es.map (·.1) = entries.map (·.1) :=
  Json.map_fst_mapM (fun m entry hentry => by
    obtain ⟨value, -, rfl⟩ := Option.map_eq_some_iff.1 hentry
    rfl) h

theorem isImage_of_relTable {d e : Datum} (h : Json.RelTable (IsImage f) d e) :
    IsImage (Catalog.sortedWith f) d e := by
  obtain ⟨entries, related, sorted, rfl, rfl, hkeys, hrelated, hperm, hsorted⟩ := h
  have himage := entriesOfData_image hrelated
  have hmoved : Option.Rel List.Perm (entriesOfData related : Option (List (String × α)))
      (entriesOfData sorted) := Json.perm_mapM hperm
  change (entriesOfData sorted).map Catalog.ofList =
    ((entriesOfData entries).map Catalog.ofList).map (Catalog.sortedWith f)
  rw [himage] at hmoved
  generalize hentries : (entriesOfData entries : Option (List (String × α))) = x at hmoved ⊢
  generalize hresult : (entriesOfData sorted : Option (List (String × α))) = y at hmoved ⊢
  cases x with
  | none =>
      cases hmoved
      rfl
  | some es =>
      cases hmoved with
      | @some _ ss hmoved =>
          refine congrArg some (Catalog.ofList_eq_sortedWith ?_ hmoved ?_)
          · rwa [map_fst_entriesOfData hentries]
          · rw [← List.pairwise_map (f := Prod.fst) (R := (· < ·)),
              map_fst_entriesOfData hresult, List.pairwise_map]
            exact hsorted

theorem followsSorting_catalog (hf : Json.FollowsSorting (IsImage f) (Json.takeDatum (shapeOf α))) :
    Json.FollowsSorting (IsImage (Catalog.sortedWith f)) (Json.takeDatum (shapeOf (Catalog α))) :=
  fun j hj => Json.rel_mono (Json.followsSorting_takeTable hf j hj) fun _ _ => isImage_of_relTable

theorem followsSorting_id (h : (shapeOf α).isTableFree = true) :
    Json.FollowsSorting (IsImage (id : α → α)) (Json.takeDatum (shapeOf α)) :=
  fun j hj => Json.rel_mono (Json.followsSorting_takeDatum _ h j hj) fun _ _ heq => heq ▸ isImage_id

end Tables

/-! ## Records with tables -/

namespace Json

variable {r : String → Datum → Datum → Prop} {slot : Slot Take}

theorem slotFollows_of_eq (hr : r slot.field.name = Eq) (hreader : FollowsSorting Eq slot.reader) :
    SlotFollows r slot :=
  ⟨hr ▸ hreader, fun _ _ => hr ▸ rfl⟩

theorem slotFollows_of_catalog {α : Type} [Stored α] {f : α → α}
    (hr : r slot.field.name = IsImage (Catalog.sortedWith f))
    (hreader : FollowsSorting (IsImage (Catalog.sortedWith f)) slot.reader)
    (hdefault : ∀ d, Partial.datumOf (slot, none) = .ok d → d = .table []) : SlotFollows r slot :=
  ⟨hr ▸ hreader, fun d hd => hr ▸ hdefault d hd ▸ rfl⟩

end Json

open Json

def Character.FieldImage (name : String) : Datum → Datum → Prop :=
  if name = "portraits" then IsImage (Catalog.sortedWith (id : String → String)) else Eq

theorem Character.fieldImage_of_ne {name : String} (h : name ≠ "portraits") : FieldImage name = Eq :=
  if_neg h

theorem Character.ofDatum_record (name emotion portraits : Datum) :
    (ofDatum (.record [name, emotion, portraits]) : Option Character) =
      (ofDatum name).bind fun n => (ofDatum emotion).bind fun e => (ofDatum portraits).bind fun p =>
        some ⟨n, e, p⟩ :=
  rfl

theorem Character.isImage_record {name emotion portraits sorted : Datum}
    (hportraits : IsImage (Catalog.sortedWith (id : String → String)) portraits sorted) :
    IsImage Character.sorted (.record [name, emotion, portraits]) (.record [name, emotion, sorted]) := by
  rw [IsImage, ofDatum_record, ofDatum_record, hportraits]
  cases (ofDatum name : Option String) with
  | none => rfl
  | some name =>
      cases (ofDatum emotion : Option String) with
      | none => rfl
      | some emotion => cases (ofDatum portraits : Option (Catalog String)) <;> rfl

theorem Character.followsSorting :
    FollowsSorting (IsImage Character.sorted) (takeDatum (shapeOf Character)) := by
  refine fun j hj => rel_mono (followsSorting_takeRecord (r := FieldImage) ?_ j hj) fun d e h => ?_
  · refine List.forall_mem_cons.2 ⟨?_, List.forall_mem_cons.2 ⟨?_, List.forall_mem_cons.2 ⟨?_, ?_⟩⟩⟩
    · exact slotFollows_of_eq (fieldImage_of_ne (by decide)) (followsSorting_takeDatum _ rfl)
    · exact slotFollows_of_eq (fieldImage_of_ne (by decide)) (followsSorting_takeDatum _ rfl)
    · refine slotFollows_of_catalog (if_pos rfl) (followsSorting_catalog (followsSorting_id rfl)) ?_
      intro d hd
      cases hd
      rfl
    · exact fun _ h => nomatch h
  · obtain ⟨data, data', rfl, rfl, _ | ⟨hname, _ | ⟨hemotion, _ | ⟨hportraits, _ | _⟩⟩⟩⟩ := h
    rw [fieldImage_of_ne (by decide)] at hname hemotion
    subst hname hemotion
    exact isImage_record hportraits

def Tree.FieldImage (name : String) : Datum → Datum → Prop :=
  if name = "characters" then IsImage (Catalog.sortedWith Character.sorted)
  else if name = "nodes" then IsImage (Catalog.sortedWith (id : Node → Node))
  else Eq

theorem Tree.fieldImage_of_ne {name : String} (hcharacters : name ≠ "characters")
    (hnodes : name ≠ "nodes") : FieldImage name = Eq :=
  (if_neg hcharacters).trans (if_neg hnodes)

theorem Tree.ofDatum_record (name characters start nodes : Datum) :
    (ofDatum (.record [name, characters, start, nodes]) : Option Tree) =
      (ofDatum name).bind fun n => (ofDatum characters).bind fun c => (ofDatum start).bind fun s =>
        (ofDatum nodes).bind fun ns => some ⟨n, c, s, ns⟩ :=
  rfl

theorem Tree.isImage_record {name start characters characters' nodes nodes' : Datum}
    (hcharacters : IsImage (Catalog.sortedWith Character.sorted) characters characters')
    (hnodes : IsImage (Catalog.sortedWith (id : Node → Node)) nodes nodes') :
    IsImage Tree.sorted (.record [name, characters, start, nodes])
      (.record [name, characters', start, nodes']) := by
  rw [IsImage, ofDatum_record, ofDatum_record, hcharacters, hnodes]
  cases (ofDatum name : Option String) with
  | none => rfl
  | some name =>
      cases (ofDatum characters : Option (Catalog Character)) with
      | none => rfl
      | some characters =>
          cases (ofDatum start : Option String) with
          | none => rfl
          | some start => cases (ofDatum nodes : Option (Catalog Node)) <;> rfl

theorem Tree.followsSorting : FollowsSorting (IsImage Tree.sorted) (takeDatum (shapeOf Tree)) := by
  refine fun j hj => rel_mono (followsSorting_takeRecord (r := FieldImage) ?_ j hj) fun d e h => ?_
  · -- Nodes have no tables in them, and in a character the portraits alone are one.
    refine List.forall_mem_cons.2 ⟨?_, List.forall_mem_cons.2 ⟨?_, List.forall_mem_cons.2 ⟨?_,
      List.forall_mem_cons.2 ⟨?_, ?_⟩⟩⟩⟩
    · exact slotFollows_of_eq (fieldImage_of_ne (by decide) (by decide))
        (followsSorting_takeDatum _ rfl)
    · refine slotFollows_of_catalog (if_pos rfl) (followsSorting_catalog Character.followsSorting) ?_
      intro d hd
      cases hd
      rfl
    · exact slotFollows_of_eq (fieldImage_of_ne (by decide) (by decide))
        (followsSorting_takeDatum _ rfl)
    · refine slotFollows_of_catalog (if_neg (by decide)) (followsSorting_catalog
        (followsSorting_id rfl)) ?_
      intro d hd
      cases hd
    · exact fun _ h => nomatch h
  · obtain ⟨data, data', rfl, rfl,
      _ | ⟨hname, _ | ⟨hcharacters, _ | ⟨hstart, _ | ⟨hnodes, _ | _⟩⟩⟩⟩⟩ := h
    rw [fieldImage_of_ne (by decide) (by decide)] at hname hstart
    subst hname hstart
    exact isImage_record hcharacters hnodes

/-! ## Texts and their parsed values -/

namespace Tree

theorem toOption_ofJson (v : Json) :
    (ofJson v).toOption = (takeDatum (shapeOf Tree) v).toOption.bind ofDatum := by
  simp only [ofJson, readValue, toOption_mapError, toOption_bind, toOption_valueOf]

theorem toOption_ofJson_sorted {j : Json} (hj : j.Unrepeated) :
    (ofJson j.sorted).toOption =
      ((takeDatum (shapeOf Tree) j).toOption.bind ofDatum).map Tree.sorted := by
  have himage := Tree.followsSorting j hj
  rw [toOption_ofJson]
  generalize (takeDatum (shapeOf Tree) j).toOption = x,
    (takeDatum (shapeOf Tree) j.sorted).toOption = y at himage
  cases himage with
  | none => rfl
  | some himage => exact himage

/-- A text without repeated keys is read as a tree exactly if its parsed value is, and then the two
trees differ in no more than the order of their nodes, characters and portraits.  They are laid out and
reviewed alike, and they are the same tree if the text keeps them in the order of their keys. -/
theorem ofJson_agrees {text : String} (hkeys : IsUnrepeated text) :
    ∃ v, parse text = .ok v ∧ ((∃ t, ofJsonText text = .ok t) ↔ ∃ u, ofJson v = .ok u) ∧
      ∀ t u, ofJsonText text = .ok t → ofJson v = .ok u →
        t.SameUpToOrder u ∧
        (∀ (α : Type) [Layout.Coordinate α] (settings : Layout.Config α) (mode : Layout.Mode),
          (Layout.of t settings mode).SameUpToOrder (Layout.of u settings mode)) ∧
        t.ReviewedAlike u ∧ (t.IsSorted → u = t) := by
  obtain ⟨j, hj, hunrepeated⟩ := hkeys
  have hwritten := toOption_eq_some_iff.1 hj
  have hread : (ofJson j.sorted).toOption = (ofJsonText text).toOption.map Tree.sorted := by
    rw [toOption_ofJson_sorted hunrepeated, toOption_ofJsonText,
      toOption_readDatum (by rfl) hwritten]
  refine ⟨j.sorted, parse_eq_ok_iff.2 ⟨j, hwritten, rfl⟩, ?_, fun t u ht hu => ?_⟩
  · simp only [← toOption_eq_some_iff, hread, Option.map_eq_some_iff]
    exact ⟨fun ⟨t, ht⟩ => ⟨_, t, ht, rfl⟩, fun ⟨_, t, ht, _⟩ => ⟨t, ht⟩⟩
  · obtain rfl : t.sorted = u := by
      rw [ht, toOption_ok, Option.map_some, hu, toOption_ok] at hread
      exact (Option.some.inj hread).symm
    have hsame := t.sameUpToOrder_sorted
    exact ⟨hsame, fun _ _ settings mode => hsame.layout settings mode, hsame.reviewedAlike,
      fun hsorted => hsorted.sorted_eq⟩

/-- A tree whose nodes are not in the order of their keys. -/
def harbourText : String :=
  "\x7b\"startNodeId\": \"z\", \"nodes\": \x7b\"z\": \x7b\x7d, \"a\": \x7b\x7d, \"m\": \x7b\x7d\x7d\x7d"

theorem ofJson_agrees_at_harbour :
    ∃ t v u, ofJsonText harbourText = .ok t ∧ parse harbourText = .ok v ∧ ofJson v = .ok u ∧
      t.SameUpToOrder u ∧ t.ReviewedAlike u := by
  have hkeys : IsUnrepeated harbourText := by decide +kernel
  obtain ⟨v, hparse, hok, hsame⟩ := ofJson_agrees hkeys
  obtain ⟨t, ht⟩ := exists_of_isSome_toOption (x := ofJsonText harbourText) (by decide +kernel)
  obtain ⟨u, hu⟩ := hok.1 ⟨t, ht⟩
  obtain ⟨hnodes, -, hreview, -⟩ := hsame t u ht hu
  exact ⟨t, v, u, ht, hparse, hu, hnodes, hreview⟩

/-- The parser stops at a number out of range which the reader of trees passes over.  Where both read a
tree, its nodes may stand in another order. -/
theorem ofJson_disagrees :
    ((∃ t, ofJsonText flareText = .ok t) ∧ (¬ ∃ v, parse flareText = .ok v) ∧
      outline flareText =
        .ok (.object [("startNodeId", .text), ("nodes", .object), ("x", .number)])) ∧
    IsUnrepeated harbourText ∧ ∃ t v u, ofJsonText harbourText = .ok t ∧
      parse harbourText = .ok v ∧ ofJson v = .ok u ∧ t.nodes.keys = ["z", "a", "m"] ∧
      u.nodes.keys = ["a", "m", "z"] := by
  have hflare : (parse flareText).toOption.isNone = true := by decide +kernel
  have hwritten : (ofJsonText harbourText).toOption.map (·.nodes.keys) = some ["z", "a", "m"] := by
    decide +kernel
  have hparsed : ((parse harbourText).toOption.bind fun v => (ofJson v).toOption.map (·.nodes.keys)) =
      some ["a", "m", "z"] := by decide +kernel
  obtain ⟨t, ht, htkeys⟩ := Option.map_eq_some_iff.1 hwritten
  obtain ⟨v, hv, hparsed⟩ := Option.bind_eq_some_iff.1 hparsed
  obtain ⟨u, hu, hukeys⟩ := Option.map_eq_some_iff.1 hparsed
  refine ⟨⟨exists_of_isSome_toOption (by decide +kernel), ?_, toOption_eq_some_iff.1 (by decide +kernel)⟩,
    by decide +kernel, t, v, u, toOption_eq_some_iff.1 ht, toOption_eq_some_iff.1 hv,
    toOption_eq_some_iff.1 hu, htkeys, hukeys⟩
  rintro ⟨v, hv⟩
  rw [hv] at hflare
  cases hflare

end Tree

end Dialogue
