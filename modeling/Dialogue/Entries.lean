/-!
# Entry lists

Looking up a key in a list of entries, one entry at a time or by membership.
-/

namespace Dialogue

/-- The first entry answers for its own key, the others for all other keys. -/
theorem lookup_entry_cons {α : Type} (key : String) (entry : String × α)
    (rest : List (String × α)) :
    (entry :: rest).lookup key = if key = entry.1 then some entry.2 else rest.lookup key := by
  obtain ⟨k, v⟩ := entry
  rw [List.lookup_cons]
  by_cases h : key = k
  · simp [h]
  · rw [show (key == k) = false from beq_false_of_ne h]
    simp [h]

/-- If no key has two entries, a key has the value of its entry. -/
theorem lookup_eq_some_iff {α : Type} {entries : List (String × α)} {key : String} {value : α}
    (h : (entries.map (·.1)).Nodup) :
    entries.lookup key = some value ↔ (key, value) ∈ entries := by
  induction entries with
  | nil => simp
  | cons entry rest ih =>
    obtain ⟨hhead, hrest⟩ := List.nodup_cons.1 h
    obtain ⟨k, v⟩ := entry
    by_cases hkey : key = k
    · subst hkey
      have hnot : (key, value) ∉ rest := fun hmem => hhead (List.mem_map.2 ⟨_, hmem, rfl⟩)
      simp [hnot, eq_comm]
    · simp [lookup_entry_cons, hkey, ih hrest]

end Dialogue
