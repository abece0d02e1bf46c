import Dialogue.Entries
/-!
# Catalogs

Values under text keys in the order in which the keys were first put in. Putting in a key again
replaces its value and keeps its place.
-/

namespace Dialogue

/-- Puts a value under a key: in the place of the key's value, or at the end. -/
def putEntry {α : Type} (key : String) (value : α) : List (String × α) → List (String × α)
  | [] => [(key, value)]
  | entry :: rest =>
    if entry.1 = key then (key, value) :: rest else entry :: putEntry key value rest

theorem map_fst_putEntry {α : Type} (key : String) (value : α) (entries : List (String × α)) :
    (putEntry key value entries).map (·.1) =
      if key ∈ entries.map (·.1) then entries.map (·.1) else entries.map (·.1) ++ [key] := by
  induction entries with
  | nil => simp [putEntry]
  | cons entry rest ih =>
    by_cases h : entry.1 = key
    · simp [putEntry, h]
    · simp only [putEntry, h, if_false, List.map_cons, ih, List.mem_cons, Ne.symm h, false_or]
      split <;> simp

theorem lookup_putEntry {α : Type} (key other : String) (value : α)
    (entries : List (String × α)) :
    (putEntry key value entries).lookup other =
      if other = key then some value else entries.lookup other := by
  induction entries with
  | nil => by_cases h : other = key <;> simp [putEntry, lookup_entry_cons, h]
  | cons entry rest ih =>
    by_cases hentry : entry.1 = key
    · by_cases h : other = key <;> simp [putEntry, lookup_entry_cons, hentry, h]
    · by_cases h : other = entry.1
      · simp [putEntry, lookup_entry_cons, hentry, h]
      · simp [putEntry, lookup_entry_cons, hentry, h, ih]

theorem putEntry_of_notMem {α : Type} {key : String} {entries : List (String × α)}
    (h : key ∉ entries.map (·.1)) (value : α) :
    putEntry key value entries = entries ++ [(key, value)] := by
  induction entries with
  | nil => rfl
  | cons entry rest ih =>
    obtain ⟨hne, hrest⟩ := not_or.1 (mt List.mem_cons.2 h)
    rw [putEntry, if_neg (Ne.symm hne), ih hrest, List.cons_append]

/-- Entries with pairwise different keys. -/
structure Catalog (α : Type) where
  entries : List (String × α)
  nodup : (entries.map (·.1)).Nodup
  deriving DecidableEq

namespace Catalog

variable {α : Type}

/-- The catalog without entries. -/
def empty : Catalog α := ⟨[], List.nodup_nil⟩

instance : Inhabited (Catalog α) := ⟨empty⟩

def insert (c : Catalog α) (key : String) (value : α) : Catalog α where
  entries := putEntry key value c.entries
  nodup := by
    rw [map_fst_putEntry]
    split
    next => exact c.nodup
    next h =>
      refine List.nodup_append.2 ⟨c.nodup, by simp, fun a ha b hb => ?_⟩
      rw [List.mem_singleton.1 hb]
      exact fun hab => h (hab ▸ ha)

/-- The catalog of a list of entries. A later entry replaces an earlier one of its key. -/
def ofList (entries : List (String × α)) : Catalog α :=
  entries.foldl (fun c entry => c.insert entry.1 entry.2) empty

/-- The value of a key, if it has one. -/
def get? (c : Catalog α) (key : String) : Option α := c.entries.lookup key

def contains (c : Catalog α) (key : String) : Bool := (c.get? key).isSome

def keys (c : Catalog α) : List String := c.entries.map (·.1)

def values (c : Catalog α) : List α := c.entries.map (·.2)

def size (c : Catalog α) : Nat := c.entries.length

@[simp] theorem get?_insert (c : Catalog α) (key other : String) (value : α) :
    (c.insert key value).get? other = if other = key then some value else c.get? other :=
  lookup_putEntry key other value c.entries

/-- Entries that are put in go before those that were there. -/
theorem get?_foldl_insert (c : Catalog α) {entries : List (String × α)}
    (h : (entries.map (·.1)).Nodup) (key : String) :
    (entries.foldl (fun c entry => c.insert entry.1 entry.2) c).get? key =
      (entries.lookup key).or (c.get? key) := by
  induction entries generalizing c with
  | nil => rfl
  | cons entry rest ih =>
    obtain ⟨hnew, hrest⟩ := List.nodup_cons.1 h
    rw [List.foldl_cons, ih _ hrest, get?_insert, lookup_entry_cons]
    by_cases hkey : key = entry.1
    · have hnone : rest.lookup key = none := by
        refine List.lookup_eq_none_iff.2 fun other hother => bne_iff_ne.2 fun heq => ?_
        exact hnew (List.mem_map.2 ⟨other, hother, heq.symm.trans hkey⟩)
      rw [if_pos hkey, if_pos hkey, hnone, Option.none_or, Option.some_or]
    · rw [if_neg hkey, if_neg hkey]

/-- A key has the value of its entry. -/
theorem get?_eq_some_iff {c : Catalog α} {key : String} {value : α} :
    c.get? key = some value ↔ (key, value) ∈ c.entries :=
  lookup_eq_some_iff c.nodup

theorem entries_foldl_insert (c : Catalog α) {entries : List (String × α)}
    (h : ((c.entries ++ entries).map (·.1)).Nodup) :
    (entries.foldl (fun c entry => c.insert entry.1 entry.2) c).entries =
      c.entries ++ entries := by
  induction entries generalizing c with
  | nil => simp
  | cons entry rest ih =>
    have hnot : entry.1 ∉ c.entries.map (·.1) := by
      rw [List.map_append, List.nodup_append] at h
      exact fun hmem => h.2.2 _ hmem _ List.mem_cons_self rfl
    have hput : (c.insert entry.1 entry.2).entries = c.entries ++ [entry] :=
      putEntry_of_notMem hnot entry.2
    rw [List.foldl_cons, ih, hput, List.append_assoc, List.singleton_append]
    rw [hput, List.append_assoc, List.singleton_append]
    exact h

theorem ext_entries {c d : Catalog α} (h : c.entries = d.entries) : c = d := by
  cases c
  cases d
  cases h
  rfl

/-- A catalog is that of its own entries. -/
theorem ofList_entries (c : Catalog α) : ofList c.entries = c :=
  ext_entries (entries_foldl_insert empty c.nodup)

theorem contains_iff {c : Catalog α} {key : String} : c.contains key = true ↔ key ∈ c.keys := by
  simp only [contains, Option.isSome_iff_exists, get?_eq_some_iff, keys, List.mem_map]
  constructor
  · rintro ⟨value, h⟩
    exact ⟨_, h, rfl⟩
  · rintro ⟨⟨_, value⟩, h, rfl⟩
    exact ⟨value, h⟩

end Catalog

end Dialogue
