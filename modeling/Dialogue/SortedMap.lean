import Dialogue.Entries
/-!
# Maps with sorted keys

Values under text keys, kept in the order of the keys' code points. Two maps with the same look-ups
are equal, so the order in which entries were put in leaves no trace.
-/

namespace Dialogue

/-- Entries in strictly increasing order of their keys. -/
structure SortedMap (α : Type) where
  entries : List (String × α)
  sorted : entries.Pairwise (fun a b => a.1 < b.1)
  deriving DecidableEq

namespace SortedMap

variable {α : Type}

/-- Puts a value into a sorted entry list, in place of the one that its key had. -/
def insertEntry (key : String) (value : α) : List (String × α) → List (String × α)
  | [] => [(key, value)]
  | entry :: rest =>
    if key < entry.1 then (key, value) :: entry :: rest
    else if key = entry.1 then (key, value) :: rest
    else entry :: insertEntry key value rest

def eraseEntry (key : String) (entries : List (String × α)) : List (String × α) :=
  entries.filter fun entry => entry.1 ≠ key

/-- Of two keys one comes first, or they are the same. -/
theorem lt_or_eq_or_gt (a b : String) : a < b ∨ a = b ∨ b < a :=
  Std.Trichotomous.rel_or_eq_or_rel_swap (r := fun x y : String => x < y)

theorem mem_insertEntry {key : String} {value : α} {entries : List (String × α)}
    {entry : String × α} (h : entry ∈ insertEntry key value entries) :
    entry = (key, value) ∨ entry ∈ entries := by
  induction entries with
  | nil => simpa [insertEntry] using h
  | cons head rest ih =>
    unfold insertEntry at h
    split at h
    · simpa using h
    · split at h
      · rcases List.mem_cons.1 h with h | h
        · exact .inl h
        · exact .inr (List.mem_cons_of_mem _ h)
      · rcases List.mem_cons.1 h with h | h
        · exact .inr (h ▸ List.mem_cons_self)
        · exact (ih h).imp id (List.mem_cons_of_mem _)

theorem sorted_insertEntry (key : String) (value : α) {entries : List (String × α)}
    (h : entries.Pairwise (fun a b => a.1 < b.1)) :
    (insertEntry key value entries).Pairwise (fun a b => a.1 < b.1) := by
  induction entries with
  | nil => simp [insertEntry]
  | cons head rest ih =>
    obtain ⟨hhead, hrest⟩ := List.pairwise_cons.1 h
    unfold insertEntry
    split
    next hlt =>
      refine List.pairwise_cons.2 ⟨fun entry hentry => ?_, h⟩
      rcases List.mem_cons.1 hentry with rfl | hentry
      · exact hlt
      · exact String.lt_trans hlt (hhead _ hentry)
    next hnot =>
      split
      next heq => exact List.pairwise_cons.2 ⟨fun entry hentry => heq ▸ hhead entry hentry, hrest⟩
      next hne =>
        refine List.pairwise_cons.2 ⟨fun entry hentry => ?_, ih hrest⟩
        rcases mem_insertEntry hentry with rfl | hentry
        · rcases lt_or_eq_or_gt head.1 key with hlt | heq | hgt
          · exact hlt
          · exact absurd heq.symm hne
          · exact absurd hgt hnot
        · exact hhead _ hentry

/-- The map without entries. -/
def empty : SortedMap α := ⟨[], List.Pairwise.nil⟩

instance : Inhabited (SortedMap α) := ⟨empty⟩

def insert (m : SortedMap α) (key : String) (value : α) : SortedMap α :=
  ⟨insertEntry key value m.entries, sorted_insertEntry key value m.sorted⟩

def erase (m : SortedMap α) (key : String) : SortedMap α :=
  ⟨eraseEntry key m.entries, m.sorted.filter _⟩

/-- The value of a key, if it has one. -/
def get? (m : SortedMap α) (key : String) : Option α := m.entries.lookup key

def contains (m : SortedMap α) (key : String) : Bool := (m.get? key).isSome

/-- The map of a list of entries. A later entry replaces an earlier one of its key. -/
def ofList (entries : List (String × α)) : SortedMap α :=
  entries.foldl (fun m entry => m.insert entry.1 entry.2) empty

def keys (m : SortedMap α) : List String := m.entries.map (·.1)

def size (m : SortedMap α) : Nat := m.entries.length

/-! ## Look-ups -/

theorem lookup_insertEntry (key other : String) (value : α) (entries : List (String × α)) :
    (insertEntry key value entries).lookup other =
      if other = key then some value else entries.lookup other := by
  induction entries with
  | nil =>
    by_cases h : other = key <;> simp [insertEntry, lookup_entry_cons, h]
  | cons head rest ih =>
    unfold insertEntry
    split
    · by_cases h : other = key <;> simp [lookup_entry_cons, h]
    · split
      next heq =>
        by_cases h : other = key
        · simp [h]
        · simp [lookup_entry_cons, h, heq ▸ h]
      next hne =>
        by_cases h : other = head.1
        · have hkey : other ≠ key := fun hok => hne (hok ▸ h)
          simp [lookup_entry_cons, h, h ▸ hkey]
        · simp [lookup_entry_cons, h, ih]

theorem lookup_eraseEntry (key other : String) (entries : List (String × α)) :
    (eraseEntry key entries).lookup other =
      if other = key then none else entries.lookup other := by
  induction entries with
  | nil => simp [eraseEntry]
  | cons head rest ih =>
    unfold eraseEntry at ih ⊢
    by_cases hhead : head.1 = key
    · rw [List.filter_cons_of_neg (by simp [hhead]), ih]
      by_cases h : other = key
      · simp [h]
      · simp [h, lookup_entry_cons, hhead]
    · rw [List.filter_cons_of_pos (by simp [hhead])]
      by_cases h : other = head.1
      · simp [lookup_entry_cons, h, hhead]
      · rw [lookup_entry_cons, lookup_entry_cons, if_neg h, if_neg h, ih]

@[simp] theorem get?_empty (key : String) : (empty : SortedMap α).get? key = none := rfl

@[simp] theorem get?_insert (m : SortedMap α) (key other : String) (value : α) :
    (m.insert key value).get? other = if other = key then some value else m.get? other :=
  lookup_insertEntry key other value m.entries

@[simp] theorem get?_erase (m : SortedMap α) (key other : String) :
    (m.erase key).get? other = if other = key then none else m.get? other :=
  lookup_eraseEntry key other m.entries

theorem get?_foldl_insert (m : SortedMap α) (key : String) (entries : List (String × α)) :
    (entries.foldl (fun m entry => m.insert entry.1 entry.2) m).get? key =
      (entries.reverse.lookup key).or (m.get? key) := by
  induction entries generalizing m with
  | nil => rfl
  | cons entry rest ih =>
    rw [List.foldl_cons, ih, get?_insert, List.reverse_cons, List.lookup_append, Option.or_assoc,
      lookup_entry_cons, List.lookup_nil]
    congr 1
    by_cases h : key = entry.1 <;> simp [h]

/-- Of several entries of a key the last one counts. -/
theorem get?_ofList (entries : List (String × α)) (key : String) :
    (ofList entries).get? key = entries.reverse.lookup key := by
  rw [ofList, get?_foldl_insert, get?_empty, Option.or_none]

theorem mem_keys_iff {m : SortedMap α} {key : String} :
    key ∈ m.keys ↔ (m.get? key).isSome = true := by
  rw [keys, List.mem_map, get?, List.lookup_isSome_iff]
  simp only [beq_iff_eq, @eq_comm _ key]

theorem mem_keys_ofList {entries : List (String × α)} {key : String} :
    key ∈ (ofList entries).keys ↔ key ∈ entries.map (·.1) := by
  rw [mem_keys_iff, get?_ofList, List.lookup_isSome_iff]
  simp only [List.mem_reverse, beq_iff_eq, List.mem_map, @eq_comm _ key]

theorem lookup_eq_none_of_lt {key : String} {entries : List (String × α)}
    (h : ∀ entry ∈ entries, key < entry.1) : entries.lookup key = none := by
  induction entries with
  | nil => rfl
  | cons head rest ih =>
    have hne : key ≠ head.1 := fun heq =>
      String.lt_irrefl _ (heq ▸ h head List.mem_cons_self)
    simp [lookup_entry_cons, hne, ih fun entry hentry => h entry (List.mem_cons_of_mem _ hentry)]

/-- Sorted entries are determined by their look-ups. -/
theorem entries_eq_of_lookup_eq {as bs : List (String × α)}
    (ha : as.Pairwise (fun x y => x.1 < y.1)) (hb : bs.Pairwise (fun x y => x.1 < y.1))
    (h : ∀ key, as.lookup key = bs.lookup key) : as = bs := by
  induction as generalizing bs with
  | nil =>
    cases bs with
    | nil => rfl
    | cons b bs => simpa [lookup_entry_cons] using h b.1
  | cons a as ih =>
    cases bs with
    | nil => simpa [lookup_entry_cons] using h a.1
    | cons b bs =>
      obtain ⟨hahead, harest⟩ := List.pairwise_cons.1 ha
      obtain ⟨hbhead, hbrest⟩ := List.pairwise_cons.1 hb
      have hkey : a.1 = b.1 := by
        rcases lt_or_eq_or_gt a.1 b.1 with hlt | heq | hgt
        · have hnone := @lookup_eq_none_of_lt _ a.1 (b :: bs) fun entry hentry => by
            rcases List.mem_cons.1 hentry with rfl | hentry
            · exact hlt
            · exact String.lt_trans hlt (hbhead _ hentry)
          simp [← h a.1, lookup_entry_cons] at hnone
        · exact heq
        · have hnone := @lookup_eq_none_of_lt _ b.1 (a :: as) fun entry hentry => by
            rcases List.mem_cons.1 hentry with rfl | hentry
            · exact hgt
            · exact String.lt_trans hgt (hahead _ hentry)
          simp [h b.1, lookup_entry_cons] at hnone
      have hvalue : a.2 = b.2 := by
        have := h a.1
        simpa [lookup_entry_cons, hkey] using this
      have hrest : as = bs := by
        refine ih harest hbrest fun key => ?_
        by_cases hk : key = a.1
        · rw [lookup_eq_none_of_lt fun entry hentry => hk ▸ hahead entry hentry,
            lookup_eq_none_of_lt fun entry hentry => hk ▸ hkey ▸ hbhead entry hentry]
        · simpa [lookup_entry_cons, hk, hkey ▸ hk] using h key
      rw [hrest, Prod.ext hkey hvalue]

/-- Two maps with the same look-ups are equal. -/
theorem ext_get? {m n : SortedMap α} (h : ∀ key, m.get? key = n.get? key) : m = n := by
  have hentries := entries_eq_of_lookup_eq m.sorted n.sorted h
  cases m
  cases n
  cases hentries
  rfl

theorem nodup_keys (m : SortedMap α) : (m.entries.map (·.1)).Nodup :=
  List.pairwise_map.2 (m.sorted.imp fun hlt heq => absurd (heq ▸ hlt) (String.lt_irrefl _))

/-- A map is that of its own entries, in whatever order they come. -/
theorem ofList_perm {m : SortedMap α} {entries : List (String × α)}
    (h : entries.Perm m.entries) : ofList entries = m := by
  have hreverse : entries.reverse.Perm m.entries := entries.reverse_perm.trans h
  have hnodup := (hreverse.map (·.1)).nodup_iff.2 m.nodup_keys
  refine ext_get? fun key => Option.ext fun value => ?_
  rw [get?_ofList, get?, lookup_eq_some_iff hnodup, lookup_eq_some_iff m.nodup_keys,
    hreverse.mem_iff]

end SortedMap

end Dialogue
