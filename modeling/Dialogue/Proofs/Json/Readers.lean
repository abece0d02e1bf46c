import Dialogue.Proofs.Json.RoundTrip
import Dialogue.Proofs.Json.Stepping
/-!
# Readers read one value

The parser and the reader of every shape step over exactly one value, whatever it says.  So the
outline of a text, which is found by stepping over its parts, can be held against what a reader
accepts.
-/

namespace Dialogue.Json

/-! ## Plain values -/

theorem skipPlain_of_startsNumber {c : Char} (h : startsNumber c = true) (tail : List Char) :
    skipPlain (c :: tail) = skipNumber (c :: tail) := by
  have hne : ∀ d, startsNumber d = false → c ≠ d := fun d hd hcd => by
    rw [hcd, hd] at h
    cases h
  simp only [skipPlain]
  rw [if_neg (hne 'n' rfl), if_neg (hne 't' rfl), if_neg (hne 'f' rfl)]
  exact if_pos h

theorem skipValue_of_skipWord {cs tail rest word : List Char} {c : Char}
    (hcs : skipGaps cs = c :: tail)
    (hword : (c, word) ∈ [('n', ['u', 'l', 'l']), ('t', ['r', 'u', 'e']), ('f', ['a', 'l', 's', 'e'])])
    (h : skipWord word tail = .ok rest) : skipValue cs = .ok rest := by
  simp only [List.mem_cons, Prod.mk.injEq, List.not_mem_nil, or_false] at hword
  obtain ⟨rfl, rfl⟩ | ⟨rfl, rfl⟩ | ⟨rfl, rfl⟩ := hword
  all_goals exact skipValue_of_skipPlain hcs (by decide) (by decide) h

theorem skipValue_of_scanNumber {cs tail rest : List Char} {c : Char} {n : Number}
    (hcs : skipGaps cs = c :: tail) (hstart : startsNumber c = true)
    (h : scanNumber (c :: tail) = .ok (n, rest)) : skipValue cs = .ok rest := by
  refine skipValue_of_skipPlain hcs ?_ ?_ ?_
  · rintro rfl
    cases hstart
  · rintro rfl
    cases hstart
  · rw [skipPlain_of_startsNumber hstart]
    exact skipNumber_of_scanNumber h

theorem skipValue_of_quotedText {cs tail rest : List Char} {s : String}
    (hcs : skipGaps cs = '"' :: tail) (h : quotedText tail = .ok (s, rest)) :
    skipValue cs = .ok rest :=
  skipValue_of_skipPlain hcs (by decide) (by decide) (skipText_of_unquote h)

/-! ## The parser -/

inductive Parsed (order : List (String × Json) → List (String × Json)) (inner : Option (Scan Json))
    (cs rest : List Char) : Json → Prop
  | null {tail : List Char} (hcs : skipGaps cs = 'n' :: tail)
      (hword : skipWord ['u', 'l', 'l'] tail = .ok rest) : Parsed order inner cs rest .null
  | yes {tail : List Char} (hcs : skipGaps cs = 't' :: tail)
      (hword : skipWord ['r', 'u', 'e'] tail = .ok rest) : Parsed order inner cs rest (.flag true)
  | no {tail : List Char} (hcs : skipGaps cs = 'f' :: tail)
      (hword : skipWord ['a', 'l', 's', 'e'] tail = .ok rest) :
      Parsed order inner cs rest (.flag false)
  | number {c : Char} {tail : List Char} {n : Number} (hcs : skipGaps cs = c :: tail)
      (hstart : startsNumber c = true) (hnumber : scanNumber (c :: tail) = .ok (n, rest)) :
      Parsed order inner cs rest (.number n)
  | text {tail : List Char} {s : String} (hcs : skipGaps cs = '"' :: tail)
      (htext : quotedText tail = .ok (s, rest)) : Parsed order inner cs rest (.text s)
  | array {tail : List Char} {item : Scan Json} {items : List Json}
      (hcs : skipGaps cs = '[' :: tail) (hinner : inner = some item)
      (hitems : elements item tail true tail = .ok (items, rest)) :
      Parsed order inner cs rest (.array items)
  | object {tail : List Char} {value : Scan Json} {ms : List (String × Json)}
      (hcs : skipGaps cs = '{' :: tail) (hinner : inner = some value)
      (hmembers : members value tail true tail = .ok (ms, rest)) :
      Parsed order inner cs rest (.object (order ms))

theorem parsed_of_valueWith {order : List (String × Json) → List (String × Json)}
    {inner : Option (Scan Json)} {cs rest : List Char} {j : Json}
    (h : valueWith order inner cs = .ok (j, rest)) : Parsed order inner cs rest j := by
  unfold valueWith at h
  split at h
  · cases h
  next c tail hcs =>
    split at h
    next hc =>
      obtain ⟨_, hword, heq⟩ := exists_of_map_eq_ok h
      cases heq
      exact .null (hc ▸ hcs) hword
    split at h
    next hc =>
      obtain ⟨_, hword, heq⟩ := exists_of_map_eq_ok h
      cases heq
      exact .yes (hc ▸ hcs) hword
    split at h
    next hc =>
      obtain ⟨_, hword, heq⟩ := exists_of_map_eq_ok h
      cases heq
      exact .no (hc ▸ hcs) hword
    split at h
    next hc =>
      obtain ⟨⟨n, _⟩, hnumber, heq⟩ := exists_of_map_eq_ok h
      cases heq
      exact .number hcs hc hnumber
    split at h
    next hc =>
      obtain ⟨⟨s, _⟩, htext, heq⟩ := exists_of_map_eq_ok h
      cases heq
      exact .text (hc ▸ hcs) htext
    split at h
    next hc =>
      split at h
      · cases h
      next item =>
        obtain ⟨⟨xs, _⟩, hitems, heq⟩ := exists_of_map_eq_ok h
        cases heq
        exact .array (hc ▸ hcs) rfl hitems
    split at h
    next hc =>
      split at h
      · cases h
      next value =>
        obtain ⟨⟨xs, _⟩, hmembers, heq⟩ := exists_of_map_eq_ok h
        cases heq
        exact .object (hc ▸ hcs) rfl hmembers
    · cases h

theorem stepsOver_valueWith {order : List (String × Json) → List (String × Json)}
    {inner : Option (Scan Json)} (hinner : ∀ scan ∈ inner, StepsOver scan) :
    StepsOver (valueWith order inner) := by
  intro cs j rest h
  cases parsed_of_valueWith h with
  | null hcs hword => exact skipValue_of_skipWord hcs (by simp) hword
  | yes hcs hword => exact skipValue_of_skipWord hcs (by simp) hword
  | no hcs hword => exact skipValue_of_skipWord hcs (by simp) hword
  | number hcs hstart hnumber => exact skipValue_of_scanNumber hcs hstart hnumber
  | text hcs htext => exact skipValue_of_quotedText hcs htext
  | array hcs hsome hitems =>
      exact skipValue_of_goOn_list hcs (leads_of_elements (hinner _ hsome)
        (elements_eq_ok_iff.1 hitems))
  | object hcs hsome hmembers =>
      exact skipValue_of_goOn_object hcs (leads_of_members (hinner _ hsome)
        (members_eq_ok_iff.1 hmembers))

theorem stepsOver_nested (order : List (String × Json) → List (String × Json)) (depth : Nat) :
    StepsOver (nested order depth) := by
  induction depth with
  | zero => exact stepsOver_valueWith fun _ h => by cases h
  | succ depth ih => exact stepsOver_valueWith fun _ h => Option.some.inj h ▸ ih

/-! ## Readers of shapes -/

theorem mismatch_ne_ok {α : Type} {expected : String} {cs : List Char} {a : α} :
    mismatch expected cs ≠ .ok a := by
  intro h
  unfold mismatch at h
  split at h
  · cases h
  split at h
  · obtain ⟨_, -, h⟩ := exists_of_bind_eq_ok h
    cases h
  split at h
  · obtain ⟨_, -, h⟩ := exists_of_bind_eq_ok h
    cases h
  split at h
  · obtain ⟨_, -, h⟩ := exists_of_bind_eq_ok h
    cases h
  split at h
  · obtain ⟨_, -, h⟩ := exists_of_bind_eq_ok h
    cases h
  split at h
  · obtain ⟨_, -, h⟩ := exists_of_bind_eq_ok h
    cases h
  split at h
  · cases h
  split at h <;> cases h

theorem stepsOver_readText : StepsOver readText := by
  intro cs x rest h
  unfold readText at h
  split at h
  next tail hcs =>
    obtain ⟨⟨s, _⟩, htext, heq⟩ := exists_of_map_eq_ok h
    cases heq
    exact skipValue_of_quotedText hcs htext
  next => exact absurd h mismatch_ne_ok

theorem stepsOver_readFlag : StepsOver readFlag := by
  intro cs x rest h
  unfold readFlag at h
  split at h
  next tail hcs =>
    obtain ⟨_, hword, heq⟩ := exists_of_map_eq_ok h
    cases heq
    exact skipValue_of_skipWord hcs (by simp) hword
  next tail hcs =>
    obtain ⟨_, hword, heq⟩ := exists_of_map_eq_ok h
    cases heq
    exact skipValue_of_skipWord hcs (by simp) hword
  next => exact absurd h mismatch_ne_ok

theorem stepsOver_readWhole (least greatest : Int) (expected : String) :
    StepsOver (readWhole least greatest expected) := by
  intro cs x rest h
  unfold readWhole at h
  split at h
  · cases h
  next c tail hcs =>
    split at h
    next hstart =>
      obtain ⟨⟨n, left⟩, hnumber, h⟩ := exists_of_bind_eq_ok h
      simp only at h
      split at h <;> cases h
      exact skipValue_of_scanNumber hcs hstart hnumber
    next => exact absurd h mismatch_ne_ok

theorem stepsOver_readReal : StepsOver readReal := by
  intro cs x rest h
  unfold readReal at h
  split at h
  · cases h
  next c tail hcs =>
    split at h
    next hstart =>
      obtain ⟨⟨n, _⟩, hnumber, heq⟩ := exists_of_map_eq_ok h
      cases heq
      exact skipValue_of_scanNumber hcs hstart hnumber
    next => exact absurd h mismatch_ne_ok

theorem stepsOver_readList {item : Scan Datum} (hitem : StepsOver item) :
    StepsOver (readList item) := by
  intro cs x rest h
  unfold readList at h
  split at h
  next tail hcs =>
    obtain ⟨⟨xs, _⟩, hitems, heq⟩ := exists_of_map_eq_ok h
    cases heq
    exact skipValue_of_goOn_list hcs (leads_of_elements hitem (elements_eq_ok_iff.1 hitems))
  next => exact absurd h mismatch_ne_ok

theorem stepsOver_readTable {value : Scan Datum} (hvalue : StepsOver value) :
    StepsOver (readTable value) := by
  intro cs x rest h
  unfold readTable at h
  split at h
  next tail hcs =>
    obtain ⟨⟨xs, _⟩, hmembers, heq⟩ := exists_of_map_eq_ok h
    cases heq
    exact skipValue_of_goOn_object hcs (leads_of_members hvalue (members_eq_ok_iff.1 hmembers))
  next => exact absurd h mismatch_ne_ok

theorem skipValue_skipGaps {cs rest : List Char} :
    skipValue (skipGaps cs) = .ok rest ↔ skipValue cs = .ok rest := by
  rw [skipValue_eq_ok_iff, skipOne_skipGaps, skipValue_eq_ok_iff]

theorem stepsOver_readOptional {inner : Scan Datum} (hinner : StepsOver inner) :
    StepsOver (readOptional inner) := by
  intro cs x rest h
  unfold readOptional at h
  split at h
  next tail hcs =>
    obtain ⟨_, hword, heq⟩ := exists_of_map_eq_ok h
    cases heq
    exact skipValue_of_skipWord hcs (by simp) hword
  next =>
    obtain ⟨⟨d, _⟩, hpresent, heq⟩ := exists_of_map_eq_ok h
    cases heq
    exact skipValue_skipGaps.1 (hinner hpresent)

/-! ### Records -/

inductive Kind where
  | null
  | flag
  | number
  | text
  | array
  | object
  deriving DecidableEq

def kindOf : List Char → Kind
  | 'n' :: _ => .null
  | 't' :: _ => .flag
  | 'f' :: _ => .flag
  | '"' :: _ => .text
  | '[' :: _ => .array
  | '{' :: _ => .object
  | _ => .number

def outlined : Scan Kind := fun cs =>
  (skipValue cs).map fun rest => (kindOf (skipGaps cs), rest)

theorem stepsOver_outlined : StepsOver outlined := by
  intro cs kind rest h
  obtain ⟨_, hskip, heq⟩ := exists_of_map_eq_ok h
  cases heq
  exact hskip

def Accepts (read : Scan Datum) (kind : Kind) : Prop :=
  ∃ cs r, read cs = .ok r ∧ kindOf (skipGaps cs) = kind

theorem outlined_of_skipValue {cs rest : List Char} (h : skipValue cs = .ok rest) :
    outlined cs = .ok (kindOf (skipGaps cs), rest) := by
  rw [outlined, h]
  rfl

theorem outlined_of_stepsOver {read : Scan Datum} (hread : StepsOver read) {cs rest : List Char}
    {d : Datum} (h : read cs = .ok (d, rest)) :
    ∃ kind, outlined cs = .ok (kind, rest) ∧ Accepts read kind :=
  ⟨_, outlined_of_skipValue (hread h), cs, _, h, rfl⟩

theorem exists_of_standing_eq_free {p : Partial (Scan Datum)} {name : String} {read : Scan Datum}
    (h : p.standing name = .free read) :
    ∃ slot ∈ p.map (·.1), slot.field.name = name ∧ slot.reader = read := by
  induction p with
  | nil => cases h
  | cons entry p ih =>
      obtain ⟨slot, datum⟩ := entry
      simp only [Partial.standing] at h
      split at h
      next hname =>
        cases datum with
        | some d => cases h
        | none =>
            cases h
            exact ⟨slot, List.mem_cons_self, hname, rfl⟩
      next =>
        obtain ⟨found, hfound, h⟩ := ih h
        exact ⟨found, List.mem_cons_of_mem _ hfound, h⟩

theorem map_fst_fill {ρ : Type} (p : Partial ρ) (name : String) (d : Datum) :
    (p.fill name d).map (·.1) = p.map (·.1) := by
  induction p with
  | nil => rfl
  | cons entry p ih =>
      obtain ⟨slot, datum⟩ := entry
      simp only [Partial.fill]
      split
      · rfl
      · rw [List.map_cons, List.map_cons, ih]

theorem mem_fill {p : Partial (Scan Datum)} {slot : Slot (Scan Datum)} {name : String}
    (h : (slot, none) ∈ p) (hname : slot.field.name ≠ name) (d : Datum) :
    (slot, none) ∈ p.fill name d := by
  induction p with
  | nil => cases h
  | cons entry p ih =>
      obtain ⟨other, datum⟩ := entry
      simp only [Partial.fill]
      split
      next hother =>
        rcases List.mem_cons.1 h with heq | h
        · cases heq
          exact absurd hother hname
        · exact List.mem_cons_of_mem _ h
      next =>
        rcases List.mem_cons.1 h with heq | h
        · exact heq ▸ List.mem_cons_self
        · exact List.mem_cons_of_mem _ (ih h)

theorem complete_ne_ok {p : Partial (Scan Datum)} {slot : Slot (Scan Datum)} (h : (slot, none) ∈ p)
    (hrefused : slot.field.absence = .refused) (data : List Datum) : p.complete ≠ .ok data := by
  induction p generalizing data with
  | nil => cases h
  | cons entry p ih =>
      intro hcomplete
      rcases List.mem_cons.1 h with heq | hmem
      · cases heq
        rw [Partial.complete, hrefused] at hcomplete
        cases hcomplete
      · rw [Partial.complete_eq_mapM, List.mapM_cons, ← Partial.complete_eq_mapM] at hcomplete
        obtain ⟨_, -, hrest⟩ := exists_of_bind_eq_ok hcomplete
        obtain ⟨more, hmore, -⟩ := exists_of_bind_eq_ok hrest
        exact ih hmem more hmore

/-- A record that is read from an object finds a member for each field that may not be left out. -/
theorem exists_members_of_readMembers {clock cs rest : List Char} {first : Bool}
    {p : Partial (Scan Datum)} (hp : ∀ slot ∈ p.map (·.1), StepsOver slot.reader)
    {data : List Datum} (h : readMembers p clock first cs = .ok (data, rest)) :
    ∃ ms, MembersRead outlined rest clock first cs ms ∧
      ∀ slot, (slot, none) ∈ p → slot.field.absence = .refused →
        ∃ found ∈ p.map (·.1), found.field.name = slot.field.name ∧
          ∃ kind, (slot.field.name, kind) ∈ ms ∧ Accepts found.reader kind := by
  induction clock generalizing first cs p with
  | nil => cases h
  | cons c clock ih =>
      obtain ⟨next, hnext, h⟩ := exists_of_bind_eq_ok h
      cases next with
      | none =>
          simp only at h
          split at h
          · unfold failClosing at h
            split at h <;> cases h
          next found hcomplete =>
            obtain ⟨left, hclose, heq⟩ := exists_of_bind_eq_ok h
            cases heq
            exact ⟨[], .done hnext hclose,
              fun slot hslot hrefused => absurd hcomplete (complete_ne_ok hslot hrefused _)⟩
      | some member =>
          obtain ⟨name, behindKey⟩ := member
          simp only at h
          split at h
          · unfold failClosing at h
            split at h <;> cases h
          next =>
            obtain ⟨value, hcolon, h⟩ := exists_of_bind_eq_ok h
            obtain ⟨left, hskip, h⟩ := exists_of_bind_eq_ok h
            obtain ⟨ms, hms, hfields⟩ := ih hp h
            refine ⟨_, .more hnext hcolon (outlined_of_skipValue hskip) hms,
              fun slot hslot hrefused => ?_⟩
            obtain ⟨found, hfound, hname, kind, hkind, haccepts⟩ := hfields slot hslot hrefused
            exact ⟨found, hfound, hname, kind, List.mem_cons_of_mem _ hkind, haccepts⟩
          next read hfree =>
            obtain ⟨reader, hreader, hname, rfl⟩ := exists_of_standing_eq_free hfree
            obtain ⟨value, hcolon, h⟩ := exists_of_bind_eq_ok h
            obtain ⟨⟨d, left⟩, hread, h⟩ := exists_of_bind_eq_ok h
            obtain ⟨kind, hkind, haccepts⟩ := outlined_of_stepsOver (hp reader hreader) hread
            obtain ⟨ms, hms, hfields⟩ := ih (by rwa [map_fst_fill]) h
            refine ⟨_, .more hnext hcolon hkind hms, fun slot hslot hrefused => ?_⟩
            by_cases hsame : slot.field.name = name
            · exact ⟨reader, hreader, hname.trans hsame.symm, kind, hsame ▸ List.mem_cons_self,
                haccepts⟩
            · obtain ⟨found, hfound, hfoundName, kind', hkind', haccepts'⟩ :=
                hfields slot (mem_fill hslot hsame d) hrefused
              rw [map_fst_fill] at hfound
              exact ⟨found, hfound, hfoundName, kind', List.mem_cons_of_mem _ hkind', haccepts'⟩

theorem length_nextElement_le {first : Bool} {cs item : List Char}
    (h : nextElement first cs = .ok (some item)) : item.length ≤ cs.length := by
  unfold nextElement at h
  split at h
  · cases h
  next c tail hcs =>
    have hle := hcs ▸ length_skipGaps_le cs
    split at h
    · cases h
    split at h
    · cases h
      exact hle
    split at h
    · split at h
      · cases h
      next d more htail =>
        split at h
        · cases h
        · cases h
          have := htail ▸ length_skipGaps_le tail
          simp only [List.length_cons] at hle this ⊢
          omega
    · cases h

theorem nextElement_of_closeList {cs rest : List Char} (h : closeList cs = .ok rest)
    (first : Bool) : nextElement first cs = .ok none := by
  unfold nextElement
  rw [skipGaps_of_closeList h]
  rfl

/-- A record that is read from a list finds an element for each field, up to some fields at the end
that may be left out. -/
theorem exists_elements_of_readPlaces {title : Title} {count index : Nat} {first : Bool}
    {slots : List (Slot (Scan Datum))} (hslots : ∀ slot ∈ slots, StepsOver slot.reader)
    {clock cs rest : List Char} (hclock : cs.length ≤ clock.length) {data : List Datum}
    (h : readPlaces title count index first slots cs = .ok (data, rest)) :
    ∃ kinds, ElementsRead outlined rest clock first cs kinds ∧
      ∃ placed left, slots = placed ++ left ∧
        List.Forall₂ (fun slot kind => Accepts slot.reader kind) placed kinds ∧
        ∀ slot ∈ left, slot.field.absence ≠ .refused := by
  induction slots generalizing index first clock cs data with
  | nil =>
      obtain ⟨left, hclose, h⟩ := exists_of_bind_eq_ok h
      cases h
      have hlt := length_lt_of_skipGaps (skipGaps_of_closeList hclose)
      obtain ⟨c, clock, rfl⟩ := List.exists_cons_of_length_pos (Nat.lt_of_lt_of_le (by omega) hclock)
      exact ⟨[], .done (nextElement_of_closeList hclose first) hclose, [], [], rfl, .nil, by simp⟩
  | cons slot slots ih =>
      have hmore : ∀ s ∈ slots, StepsOver s.reader := fun s hs => hslots s (List.mem_cons_of_mem _ hs)
      obtain ⟨next, hnext, h⟩ := exists_of_bind_eq_ok h
      cases next with
      | some item =>
          obtain ⟨⟨d, left⟩, hitem, h⟩ := exists_of_bind_eq_ok h
          obtain ⟨⟨data', left'⟩, hplaces, h⟩ := exists_of_bind_eq_ok h
          cases h
          have hstep := hslots slot List.mem_cons_self
          have hshorter := length_skipValue_lt (hstep hitem)
          have hle := length_nextElement_le hnext
          obtain ⟨c, clock, rfl⟩ :=
            List.exists_cons_of_length_pos (Nat.lt_of_lt_of_le (by omega) hclock)
          have hticks : left.length ≤ clock.length := by
            rw [List.length_cons] at hclock
            omega
          obtain ⟨kind, hkind, haccepts⟩ := outlined_of_stepsOver hstep hitem
          obtain ⟨kinds, hkinds, placed, unplaced, rfl, hplaced, hunplaced⟩ :=
            ih hmore hticks hplaces
          exact ⟨_, .more hnext hkind hkinds, slot :: placed, unplaced, rfl,
            .cons haccepts hplaced, hunplaced⟩
      | none =>
          -- The list ends here, so nothing more is placed.
          simp only at h
          split at h
          next d habsence =>
            obtain ⟨⟨data', left'⟩, hplaces, h⟩ := exists_of_bind_eq_ok h
            cases h
            obtain ⟨kinds, hkinds, placed, unplaced, rfl, hplaced, hunplaced⟩ :=
              ih hmore hclock hplaces
            cases hkinds with
            | done hnone hclose =>
                cases hplaced
                refine ⟨[], .done hnone hclose, [], slot :: unplaced, rfl, .nil, ?_⟩
                simpa [habsence] using hunplaced
            | more hsome => rw [hnext] at hsome; cases hsome
          next =>
            unfold failClosing at h
            split at h <;> cases h

/-! ### All shapes -/

theorem stepsOver_readRecord {title : Title} {slots : List (Slot (Scan Datum))}
    (hslots : ∀ slot ∈ slots, StepsOver slot.reader) : StepsOver (readRecord title slots) := by
  intro cs x rest h
  unfold readRecord at h
  split at h
  next tail hcs =>
    obtain ⟨⟨data, _⟩, hmembers, heq⟩ := exists_of_map_eq_ok h
    cases heq
    obtain ⟨ms, hms, -⟩ := exists_members_of_readMembers
      (by simpa [Partial.ofSlots] using hslots) hmembers
    exact skipValue_of_goOn_object hcs (leads_of_members stepsOver_outlined hms)
  next tail hcs =>
    obtain ⟨⟨data, _⟩, hplaces, heq⟩ := exists_of_map_eq_ok h
    cases heq
    obtain ⟨kinds, hkinds, -⟩ := exists_elements_of_readPlaces hslots (Nat.le_refl _) hplaces
    exact skipValue_of_goOn_list hcs (leads_of_elements stepsOver_outlined hkinds)
  next => exact absurd h mismatch_ne_ok

theorem stepsOver_readPayload_nothing : StepsOver (readPayload .nothing) := by
  intro cs x rest h
  simp only [readPayload] at h
  split at h
  next tail hcs =>
    obtain ⟨_, hword, heq⟩ := exists_of_map_eq_ok h
    cases heq
    exact skipValue_of_skipWord hcs (by simp) hword
  next => exact absurd h mismatch_ne_ok

theorem closeObject_of_closeChoice {cs rest : List Char} (h : closeChoice cs = .ok rest) :
    closeObject cs = .ok rest := by
  unfold closeChoice at h
  split at h
  · cases h
  next c tail hcs =>
    split at h
    next hclose =>
      cases h
      unfold closeObject
      rw [hcs, hclose]
      rfl
    · cases h

theorem stepsOver_readChoice {alternatives : List (Alternative (Scan Datum))}
    (halternatives : ∀ a ∈ alternatives, StepsOver (readPayload a.payload)) :
    StepsOver (readChoice alternatives) := by
  intro cs x rest h
  unfold readChoice at h
  split at h
  · cases h
  next tail hcs =>
    obtain ⟨⟨name, left⟩, htext, h⟩ := exists_of_bind_eq_ok h
    simp only at h
    split at h <;> cases h
    exact skipValue_of_quotedText hcs htext
  next tail hcs =>
    unfold readTagged at h
    split at h
    · cases h
    next text htail =>
      obtain ⟨⟨name, behindKey⟩, htext, h⟩ := exists_of_bind_eq_ok h
      simp only at h
      split at h
      · cases h
      next a hfind =>
        obtain ⟨value, hcolon, h⟩ := exists_of_bind_eq_ok h
        obtain ⟨⟨payload, left⟩, hpayload, h⟩ := exists_of_bind_eq_ok h
        obtain ⟨_, hclose, h⟩ := exists_of_bind_eq_ok h
        cases h
        have hnext : nextKey true tail = .ok (some (name, behindKey)) := by
          simp only [nextKey, htail, key, htext]
          rfl
        have hvalue := halternatives a (List.mem_of_find?_eq_some hfind) hpayload
        have hend := closeObject_of_closeChoice hclose
        exact skipValue_of_goOn_object hcs
          (leads_goOn_of_nextKey hnext hcolon hvalue (leads_goOn_of_closeObject hend))
    · cases h
  · cases h

mutual

theorem stepsOver_of : (shape : Shape) → StepsOver (textReaders.of shape)
  | .text => stepsOver_readText
  | .flag => stepsOver_readFlag
  | .count => stepsOver_readWhole _ _ _
  | .size => stepsOver_readWhole _ _ _
  | .real => stepsOver_readReal
  | .list item => stepsOver_readList (stepsOver_of item)
  | .table value => stepsOver_readTable (stepsOver_of value)
  | .optional inner => stepsOver_readOptional (stepsOver_of inner)
  | .record _ fields => stepsOver_readRecord (stepsOver_slots fields)
  | .choice variants => stepsOver_readChoice (stepsOver_alternatives variants)

theorem stepsOver_slots : (fields : List (Field × Shape)) →
    ∀ slot ∈ textReaders.slots fields, StepsOver slot.reader
  | [], _, h => by cases h
  | (_, shape) :: fields, slot, h => by
      rcases List.mem_cons.1 h with rfl | h
      · exact stepsOver_of shape
      · exact stepsOver_slots fields slot h

theorem stepsOver_alternatives : (variants : List (String × Option Shape)) →
    ∀ a ∈ textReaders.alternatives variants, StepsOver (readPayload a.payload)
  | [], _, h => by cases h
  | (name, payload) :: variants, a, h => by
      obtain ⟨read, hread, heq⟩ := exists_alternative (name, payload) variants
      rw [heq] at h
      rcases List.mem_cons.1 h with rfl | h
      · cases payload with
        | none =>
            cases hread
            exact stepsOver_readPayload_nothing
        | some shape =>
            intro cs x rest hpayload
            rw [hread cs] at hpayload
            obtain ⟨⟨d, _⟩, hshape, heq⟩ := exists_of_map_eq_ok hpayload
            cases heq
            exact stepsOver_of shape hshape
      · exact stepsOver_alternatives variants a h

end

/-! ## Whole texts -/

theorem readAll_eq_ok_iff {α : Type} {scan : Scan α} {s : String} {x : α} :
    readAll scan s = .ok x ↔ ∃ rest, scan s.toList = .ok (x, rest) ∧ skipGaps rest = [] := by
  unfold readAll scanAll
  constructor
  · intro h
    cases hscan : scan s.toList with
    | error e =>
        rw [hscan] at h
        cases h
    | ok r =>
        rw [hscan] at h
        cases hrest : skipGaps r.2 with
        | nil =>
            simp only [bind, Except.bind, hrest] at h
            cases h
            exact ⟨r.2, rfl, hrest⟩
        | cons c rest =>
            simp only [bind, Except.bind, hrest] at h
            cases h
  · rintro ⟨rest, hscan, hrest⟩
    simp only [bind, Except.bind, hscan, hrest]
    rfl

@[simp] theorem toOption_valueOf {α : Type} [Stored α] (d : Datum) :
    (valueOf α d).toOption = ofDatum d := by
  unfold valueOf
  cases (ofDatum d : Option α) <;> rfl

theorem toOption_readPlaced {α : Type} [Stored α] (s : String) :
    (readPlaced α s).toOption = (readDatum (shapeOf α) s).toOption.bind ofDatum := by
  simp only [readPlaced, toOption_bind, toOption_mapError, toOption_valueOf]

end Dialogue.Json
