import Dialogue.Json.Stored
import Dialogue.Proofs.Json.Listing
import Dialogue.Proofs.Json.Whole
import Dialogue.Proofs.Shape.Fit
/-!
# Data read back from its written form

What fits a sound shape is read back from its text, be it written compactly or over several lines.
The proof goes along the datum: for each kind of shape a lemma says that the reader of the shape
undoes its writer if the readers of the parts do so.
-/

namespace Dialogue.Json

variable {spacing : Spacing} (level : Nat)

/-! ## Values without parts -/

theorem reads_text (s : String) : Reads readText (quoted s) (.text s) where
  begins := begins_cons rfl (by decide) _
  scan_eq {cs rest} hcs _ := by
    obtain ⟨tail, htail, hread⟩ := quotedText_quoted s rest
    rw [readText, hcs, htail]
    simp only [hread, Except.map]

theorem reads_flag (b : Bool) : Reads readFlag (chars spacing level (.flag b)) (.flag b) := by
  refine ⟨by cases b <;> exact begins_cons rfl (by decide) _, fun {cs rest} hcs _ => ?_⟩
  rw [readFlag, hcs]
  cases b <;> rfl

theorem isGap_of_startsNumber {c : Char} (h : c = '-' ∨ c.isDigit = true) : isGap c = false := by
  cases hgap : isGap c with
  | false => rfl
  | true =>
    simp only [isGap, Bool.or_eq_true, decide_eq_true_eq, or_assoc] at hgap
    rcases hgap with rfl | rfl | rfl | rfl <;> exact absurd h (by decide)

theorem reads_whole {least greatest n : Int} (expected : String) (hword : FitsWord n)
    (hleast : least ≤ n) (hgreatest : n ≤ greatest) :
    Reads (readWhole least greatest expected) (chars spacing level (.whole n)) (.whole n) := by
  have hscan := @scanNumber_whole n hword
  obtain ⟨c, cs, hchars, hstart⟩ := exists_chars_whole n
  have hnumber : startsNumber c = true := by simpa [startsNumber] using hstart
  have hclose : c ≠ ']' := by
    rintro rfl
    exact absurd hstart (by decide)
  rw [hchars] at hscan
  rw [whole, chars, hchars]
  refine ⟨begins_cons (isGap_of_startsNumber hstart) hclose cs, fun {left rest} hleft hends => ?_⟩
  rw [readWhole, hleft, List.cons_append]
  simp only [hnumber, if_true, ← List.cons_append, hscan hends, wholeBetween, hleast, hgreatest,
    decide_true, Bool.and_self, bind, Except.bind, pure, Except.pure]

theorem reads_absent (inner : Scan Datum) :
    Reads (readOptional inner) (chars spacing level .null) .absent := by
  refine ⟨begins_cons rfl (by decide) _, fun {cs rest} hcs _ => ?_⟩
  rw [readOptional, hcs]
  rfl

theorem reads_present {inner : Scan Datum} {text : List Char} {d : Datum}
    (h : Reads inner text d) (hnull : text.head? ≠ some 'n') :
    Reads (readOptional inner) text (.present d) := by
  refine ⟨h.begins, fun {cs rest} hcs hends => ?_⟩
  have hread := h.scan_append hends
  rw [readOptional, hcs]
  -- Only `null` begins with the letter that an optional value is looked at for.
  split
  next tail heq =>
    obtain ⟨c, rest', rfl, -⟩ := h.begins
    exact absurd (congrArg some (List.cons.inj heq).1) hnull
  next =>
    rw [hread]
    rfl

/-! ## Left out fields and chosen variants -/

theorem isLeftOut_iff {field : Field} {d : Datum} :
    isLeftOut field d = true ↔ d = .absent ∧ field.hiddenWhenAbsent = true := by
  cases d <;> simp [isLeftOut]

section

variable {variants : List (String × Option Shape)} {name : String}

def variantJson (name : String) : Option Shape → Option Datum → Json
  | some shape, some d => .object [(name, writeDatum shape d)]
  | _, _ => .text name

theorem writeVariant_cons (name known : String) (payload : Option Datum) (shape : Option Shape)
    (rest : List (String × Option Shape)) :
    writeVariant name payload ((known, shape) :: rest) =
      if known = name then variantJson name shape payload else writeVariant name payload rest := by
  cases shape <;> cases payload <;> simp [writeVariant, variantJson]

theorem writeVariant_eq {shape : Option Shape} (h : variants.lookup name = some shape)
    (payload : Option Datum) :
    writeVariant name payload variants = variantJson name shape payload := by
  induction variants with
  | nil => cases h
  | cons variant variants ih =>
      obtain ⟨known, other⟩ := variant
      rw [lookup_entry_cons] at h
      rw [writeVariant_cons]
      by_cases hname : name = known
      · rw [if_pos hname] at h
        obtain rfl : other = shape := Option.some.inj h
        rw [if_pos hname.symm]
      · rw [if_neg hname] at h
        rw [if_neg (Ne.symm hname), ih h]

/-- What the readers of a choice do behind the name of a variant. -/
def ReadsPayload (payload : Option Shape) (read : Payload (Scan Datum)) : Prop :=
  match payload with
  | none => read = .nothing
  | some shape => ∀ cs, readPayload read cs = (textReaders.of shape cs).map fun r => (some r.1, r.2)

theorem exists_alternative (variant : String × Option Shape)
    (variants : List (String × Option Shape)) :
    ∃ read, ReadsPayload variant.2 read ∧ textReaders.alternatives (variant :: variants) =
      ⟨variant.1, read⟩ :: textReaders.alternatives variants := by
  obtain ⟨known, payload⟩ := variant
  cases payload with
  | none => exact ⟨.nothing, rfl, rfl⟩
  | some shape =>
      cases shape with
      | record title fields =>
          cases title with
          | record name => exact ⟨.single _, fun cs => rfl, rfl⟩
          | variant choice name => exact ⟨.fields _ _, fun cs => rfl, rfl⟩
      | _ => exact ⟨.single _, fun cs => rfl, rfl⟩

theorem find?_alternatives {payload : Option Shape} (h : variants.lookup name = some payload) :
    ∃ read, ReadsPayload payload read ∧
      (textReaders.alternatives variants).find? (fun a => a.name = name) = some ⟨name, read⟩ := by
  induction variants with
  | nil => cases h
  | cons variant variants ih =>
      obtain ⟨read, hread, halternatives⟩ := exists_alternative variant variants
      rw [lookup_entry_cons] at h
      rw [halternatives]
      by_cases hname : name = variant.1
      · rw [if_pos hname] at h
        refine ⟨read, Option.some.inj h ▸ hread, ?_⟩
        simp [hname]
      · rw [if_neg hname] at h
        obtain ⟨other, hother, hfind⟩ := ih h
        refine ⟨other, hother, ?_⟩
        rw [List.find?_cons_of_neg (by simpa using Ne.symm hname), hfind]

theorem reads_bare (h : variants.lookup name = some none) :
    Reads (readChoice (textReaders.alternatives variants)) (quoted name) (.variant name none) := by
  refine ⟨begins_cons rfl (by decide) _, fun {cs rest} hcs _ => ?_⟩
  obtain ⟨tail, htail, hname⟩ := quotedText_quoted name rest
  obtain ⟨read, hread, hfind⟩ := find?_alternatives h
  cases hread
  rw [readChoice, hcs, htail]
  simp only [hname, bareVariant, hfind, payloadName?, bind, Except.bind, pure, Except.pure]

end

/-! ## Values that are not `null` -/

theorem head?_whole_ne (n : Int) : (chars spacing level (.whole n)).head? ≠ some 'n' := by
  obtain ⟨c, cs, hchars, hstart⟩ := exists_chars_whole n
  rw [whole, chars, hchars]
  intro h
  obtain rfl := Option.some.inj h
  exact absurd hstart (by decide)

/-- Of all data only what is absent is written as `null`. -/
theorem head?_chars_ne {shape : Shape} {d : Datum} (h : Fits shape d)
    (hshape : shape.isOptional = false) :
    (chars spacing level (writeDatum shape d)).head? ≠ some 'n' := by
  cases h with
  | text s => simp [writeDatum, chars, quoted]
  | flag b => cases b <;> simp [writeDatum, chars]
  | count hleast hgreatest => exact head?_whole_ne level _
  | size hbound => exact head?_whole_ne level _
  | list hitems => simp [writeDatum, head?_array]
  | table hentries => simp [writeDatum, head?_object]
  | absent inner => cases hshape
  | present hinner => cases hshape
  | record hlength hfields => simp [writeDatum, head?_object]
  | bare hname => simp [writeDatum, writeVariant_eq hname, variantJson, chars, quoted]
  | tagged hname hpayload => simp [writeDatum, writeVariant_eq hname, variantJson, head?_object]

/-! ## Values with parts -/

section

variable (hspacing : spacing.IsBlank)

include hspacing

theorem reads_list {item : Scan Datum} {write : Datum → Json} {items : List Datum}
    (h : ∀ d ∈ items, Reads item (chars spacing (level + 1) (write d)) d) :
    Reads (readList item) (chars spacing level (.array (items.map write))) (.list items) := by
  obtain ⟨close, hclose, hchars⟩ := exists_chars_array hspacing level (items.map write)
  rw [List.map_map] at hchars
  rw [hchars]
  refine ⟨begins_cons rfl (by decide) _, fun {cs rest} hcs hends => ?_⟩
  have hclock := length_lt_listed (fun d hd => (h d hd).begins.ne_nil)
    (spacing.lineBreak (level + 1)) close true ']' rest
  have hread := elements_listed (hspacing.lineBreak (level + 1)) hclose h hclock true rest
  rw [readList, hcs]
  simp only [List.cons_append, List.append_assoc, List.nil_append]
  rw [Function.comp_def, hread]
  rfl

theorem reads_table {value : Scan Datum} {write : Datum → Json} {entries : List (String × Datum)}
    (h : ∀ entry ∈ entries, Reads value (chars spacing (level + 1) (write entry.2)) entry.2) :
    Reads (readTable value)
      (chars spacing level (.object (entries.map fun entry => (entry.1, write entry.2))))
      (.table entries) := by
  obtain ⟨close, hclose, hchars⟩ := exists_chars_object hspacing level
    (entries.map fun entry => (entry.1, write entry.2))
  rw [List.map_map, Function.comp_def] at hchars
  rw [hchars]
  refine ⟨begins_cons rfl (by decide) _, fun {cs rest} hcs _ => ?_⟩
  have hne : ∀ entry ∈ entries, memberChars spacing (level + 1) (entry.1, write entry.2) ≠ [] :=
    fun entry _ => memberChars_ne_nil spacing (level + 1) (entry.1, write entry.2)
  have hclock := length_lt_listed hne (spacing.lineBreak (level + 1)) close true '}' rest
  have hread := members_listed (hspacing.lineBreak (level + 1)) hclose hspacing h hclock true rest
  rw [readTable, hcs]
  simp only [List.cons_append, List.append_assoc, List.nil_append]
  rw [hread]
  rfl

/-- The fields in `done` have been read or passed over; the others are still to come. -/
theorem readMembers_listed {lineBreak close : List Char} (hlead : IsBlank lineBreak)
    (hclose : IsBlank close) {fields : List (Field × Shape)} {data : List Datum}
    (hlength : fields.length = data.length)
    (hreads : ∀ pair ∈ fields.zip data, Reads (textReaders.of pair.1.2)
      (chars spacing level (writeDatum pair.1.2 pair.2)) pair.2)
    (hsound : fieldsSound fields = true) {done : Partial (Scan Datum)} {before : List Datum}
    (hdone : done.Settled before (fields.map (·.1.name)))
    {clock : List Char} (hclock : (writeFields fields data).length < clock.length)
    (first : Bool) (rest : List Char) :
    readMembers (done ++ Partial.ofSlots (textReaders.slots fields)) clock first
        (listed lineBreak first ((writeFields fields data).map (memberChars spacing level)) ++
          (close ++ '}' :: rest)) =
      .ok (before ++ data, rest) := by
  -- A field that is left out moves to `done` without a step of the clock and without a character,
  -- so whether the next member is the first one is not known from `done`.
  induction fields generalizing data done before clock first with
  | nil =>
      obtain ⟨tick, clock, rfl⟩ := List.exists_cons_of_length_pos (Nat.zero_lt_of_lt hclock)
      obtain rfl := List.length_eq_zero_iff.1 hlength.symm
      have hslots : Partial.ofSlots (textReaders.slots []) = [] := rfl
      have hwritten : (writeFields [] []).map (memberChars spacing level) = [] := rfl
      simp only [hslots, hwritten, List.append_nil, listed, List.nil_append, readMembers,
        nextKey_close hclose, hdone.complete_eq, closeObject_close hclose, bind, Except.bind, pure,
        Except.pure]
  | cons entry fields ih =>
      obtain ⟨field, shape⟩ := entry
      obtain ⟨d, data, rfl⟩ := List.exists_cons_of_length_eq_add_one hlength.symm
      simp only [List.length_cons, Nat.add_right_cancel_iff] at hlength
      simp only [List.zip_cons_cons, List.forall_mem_cons] at hreads
      obtain ⟨hhead, hreads⟩ := hreads
      simp only [fieldsSound, Bool.and_eq_true] at hsound
      obtain ⟨⟨hfield, -⟩, hsound⟩ := hsound
      let slot : Slot (Scan Datum) := ⟨field, textReaders.of shape⟩
      let waiting := Partial.ofSlots (textReaders.slots fields)
      have hwaiting : Partial.ofSlots (textReaders.slots ((field, shape) :: fields)) =
        (slot, none) :: waiting := rfl
      replace hdone : done.Settled before (slot.field.name :: fields.map (·.1.name)) := hdone
      rw [hwaiting]
      by_cases hleft : isLeftOut field d = true
      · obtain ⟨rfl, hhidden⟩ := isLeftOut_iff.1 hleft
        have hdatum : Partial.datumOf (slot, none) = .ok .absent :=
          Partial.datumOf_hidden hfield hhidden
        simp only [writeFields, hleft, if_true] at hclock ⊢
        have hread := ih hlength hreads hsound (hdone.push hdatum) hclock first
        simpa only [List.append_assoc, List.singleton_append] using hread
      · obtain ⟨tick, clock, rfl⟩ := List.exists_cons_of_length_pos (Nat.zero_lt_of_lt hclock)
        simp only [writeFields, hleft, if_false, Bool.false_eq_true] at hclock ⊢
        have hdatum : Partial.datumOf (slot, some d) = .ok d := rfl
        have hends := ends_listed lineBreak
          ((writeFields fields data).map (memberChars spacing level)) hclose
          (List.mem_cons_of_mem _ List.mem_cons_self : '}' ∈ [']', '}']) rest
        have hvalue := hhead.scan_blank hspacing.afterColon hends
        have hstanding : Partial.standing field.name (done ++ (slot, none) :: waiting) =
          .free (textReaders.of shape) := hdone.standing_eq waiting
        have hfill : Partial.fill field.name d (done ++ (slot, none) :: waiting) =
          done ++ (slot, some d) :: waiting := hdone.fill_eq d waiting
        have hread := ih hlength hreads hsound (hdone.push hdatum)
          (Nat.lt_of_succ_lt_succ hclock) false
        simp only [List.append_assoc, List.singleton_append] at hread
        simp only [List.map_cons, listed, List.append_assoc, readMembers, nextKey_member hlead,
          hstanding, hfill, colon_cons, hvalue, hread, waiting, bind, Except.bind]

theorem reads_record (title : Title) {fields : List (Field × Shape)} {data : List Datum}
    (hlength : fields.length = data.length)
    (hreads : ∀ pair ∈ fields.zip data, Reads (textReaders.of pair.1.2)
      (chars spacing (level + 1) (writeDatum pair.1.2 pair.2)) pair.2)
    (hnames : (fields.map (·.1.name)).Nodup) (hsound : fieldsSound fields = true) :
    Reads (readRecord title (textReaders.slots fields))
      (chars spacing level (.object (writeFields fields data))) (.record data) := by
  obtain ⟨close, hclose, hchars⟩ := exists_chars_object hspacing level (writeFields fields data)
  rw [hchars]
  refine ⟨begins_cons rfl (by decide) _, fun {cs rest} hcs _ => ?_⟩
  have hne : ∀ member ∈ writeFields fields data, memberChars spacing (level + 1) member ≠ [] :=
    fun member _ => memberChars_ne_nil spacing (level + 1) member
  have hclock := length_lt_listed hne (spacing.lineBreak (level + 1)) close true '}' rest
  have hdone : Partial.Settled ([] : Partial (Scan Datum)) [] (fields.map (·.1.name)) :=
    ⟨hnames, rfl⟩
  have hread := readMembers_listed (level + 1) hspacing (hspacing.lineBreak (level + 1)) hclose
    hlength hreads hsound hdone hclock true rest
  simp only [List.nil_append] at hread
  rw [readRecord, hcs]
  simp only [List.cons_append, List.append_assoc, List.nil_append, hread]
  rfl

theorem reads_tagged {variants : List (String × Option Shape)} {name : String} {shape : Shape}
    {d : Datum} (h : variants.lookup name = some (some shape))
    (hpayload : Reads (textReaders.of shape) (chars spacing (level + 1) (writeDatum shape d)) d) :
    Reads (readChoice (textReaders.alternatives variants))
      (chars spacing level (.object [(name, writeDatum shape d)])) (.variant name (some d)) := by
  obtain ⟨close, hclose, hchars⟩ := exists_chars_object hspacing level
    [(name, writeDatum shape d)]
  rw [hchars]
  refine ⟨begins_cons rfl (by decide) _, fun {cs rest} hcs _ => ?_⟩
  obtain ⟨read, hread, hfind⟩ := find?_alternatives h
  -- The only member of the object: its name, and all that stands behind the name.
  let behind := ':' :: (spacing.afterColon ++
    (chars spacing (level + 1) (writeDatum shape d) ++ (close ++ '}' :: rest)))
  have hends : Ends (close ++ '}' :: rest) := ends_append hclose (ends_cons (.inr (by decide)) rest)
  have hvalue := hpayload.scan_blank hspacing.afterColon hends
  have hlead := skipGaps_lead (hspacing.lineBreak (level + 1)) (begins_quoted name behind)
  have hcloseChoice : closeChoice (close ++ '}' :: rest) = .ok rest := by
    simp [closeChoice, skipGaps_close hclose]
  have htext : '{' :: (listed (spacing.lineBreak (level + 1)) true
      ([(name, writeDatum shape d)].map (memberChars spacing (level + 1))) ++ (close ++ ['}'])) ++
        rest = '{' :: (spacing.lineBreak (level + 1) ++ (quoted name ++ behind)) := by
    simp [listed, lead, memberChars, behind]
  obtain ⟨tail, htail, hname⟩ := quotedText_quoted name behind
  rw [readChoice, hcs, htext]
  simp only [readTagged, hlead]
  rw [htail]
  simp only [hname, hfind, behind, colon_cons, hread _, hvalue, hcloseChoice, bind, Except.bind,
    Except.map, pure, Except.pure]

/-! ## All data -/

/-- Along the datum: what its parts are read back from, it is read back from itself. -/
theorem reads_of_fits {shape : Shape} {d : Datum} (h : Fits shape d)
    (hsound : shape.isSound = true) :
    Reads (textReaders.of shape) (chars spacing level (writeDatum shape d)) d := by
  -- The parts of a value are written one level further in.
  induction h generalizing level with
  | text s => exact reads_text s
  | flag b => exact reads_flag level b
  | count hleast hgreatest =>
      exact reads_whole level "i64" (fitsWord_of_count hleast hgreatest) hleast hgreatest
  | size hbound =>
      exact reads_whole level "usize" (fitsWord_of_size hbound) (Int.natCast_nonneg _) (by omega)
  | list hitems ih => exact reads_list level hspacing fun d hd => ih d hd (level + 1) hsound
  | table hentries ih =>
      exact reads_table level hspacing fun entry hentry => ih entry hentry (level + 1) hsound
  | absent inner => exact reads_absent level (textReaders.of inner)
  | present hinner ih =>
      simp only [Shape.isSound, Bool.and_eq_true, Bool.not_eq_true'] at hsound
      rw [writeDatum]
      exact reads_present (ih level hsound.2) (head?_chars_ne level hinner hsound.1)
  | record hlength hfields ih =>
      simp only [Shape.isSound, Bool.and_eq_true, decide_eq_true_eq] at hsound
      obtain ⟨hnames, hsound⟩ := hsound
      have hreads := fun pair hpair => ih pair hpair (level + 1) (isSound_of_mem_zip hsound hpair)
      exact reads_record level hspacing _ hlength hreads hnames hsound
  | bare hname =>
      rw [writeDatum, writeVariant_eq hname]
      exact reads_bare hname
  | tagged hname hpayload ih =>
      rw [writeDatum, writeVariant_eq hname]
      exact reads_tagged level hspacing hname (ih (level + 1) (isSound_of_lookup hsound hname))

theorem readDatum_of_fits {shape : Shape} {d : Datum} (h : Fits shape d)
    (hsound : shape.isSound = true) :
    readDatum shape (String.ofList (chars spacing 0 (writeDatum shape d))) = .ok d := by
  refine readAll_of_reads ?_
  rw [String.toList_ofList]
  exact reads_of_fits 0 hspacing h hsound

theorem readPlaced_chars {α : Type} [Stored α] (hsound : (shapeOf α).isSound = true) {d : Datum}
    {a : α} (h : Fits (shapeOf α) d) (hd : ofDatum d = some a) :
    readPlaced α (String.ofList (chars spacing 0 (writeDatum (shapeOf α) d))) = .ok a := by
  rw [readPlaced, readDatum_of_fits hspacing h hsound]
  simp only [bind, Except.bind, valueOf, hd]
  rfl

end

theorem write_list {α : Type} [Stored α] (items : List α) :
    write items = .array (items.map write) := by
  change Json.array ((items.map toDatum).map _) = _
  rw [List.map_map]
  rfl

theorem readPlaced_writePretty {α : Type} [Stored α] [LawfulStored α]
    (hsound : (shapeOf α).isSound = true) (a : α) : readPlaced α (writePretty a) = .ok a :=
  readPlaced_chars Spacing.isBlank_pretty hsound (fits a) (ofDatum_toDatum a)

end Dialogue.Json
