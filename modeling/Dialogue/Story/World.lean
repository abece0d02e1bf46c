import Dialogue.SortedMap
/-!
# The state of a story

What a story remembers while it is played: the flags that are set and the counters that have been
written. A counter that was never written reads as zero, yet stays apart from one that was set to
zero.
-/

namespace Dialogue

/-- The flags that are set. -/
structure Flags where
  names : SortedMap Unit
  deriving DecidableEq, Inhabited

namespace Flags

def none : Flags := ⟨.empty⟩

def ofList (flags : List String) : Flags := ⟨.ofList (flags.map fun flag => (flag, ()))⟩

/-- The flags that are set, in order. -/
def toList (f : Flags) : List String := f.names.keys

def contains (f : Flags) (flag : String) : Bool := f.names.contains flag

def set (f : Flags) (flag : String) : Flags := ⟨f.names.insert flag ()⟩

def clear (f : Flags) (flag : String) : Flags := ⟨f.names.erase flag⟩

def toggle (f : Flags) (flag : String) : Flags :=
  if f.contains flag then f.clear flag else f.set flag

@[simp] theorem contains_set (f : Flags) (flag other : String) :
    (f.set flag).contains other = (decide (other = flag) || f.contains other) := by
  by_cases h : other = flag <;> simp [set, contains, SortedMap.contains, h]

@[simp] theorem contains_clear (f : Flags) (flag other : String) :
    (f.clear flag).contains other = (decide (other ≠ flag) && f.contains other) := by
  by_cases h : other = flag <;> simp [clear, contains, SortedMap.contains, h]

@[simp] theorem contains_toggle (f : Flags) (flag other : String) :
    (f.toggle flag).contains other =
      if other = flag then !f.contains flag else f.contains other := by
  unfold toggle
  by_cases h : other = flag <;> split <;> simp_all

end Flags

/-- The counters that have been written. -/
structure Counters where
  values : SortedMap Int64
  deriving DecidableEq, Inhabited

namespace Counters

def none : Counters := ⟨.empty⟩

/-- The counters of a list. A later entry replaces an earlier one of its key. -/
def ofList (entries : List (String × Int64)) : Counters := ⟨.ofList entries⟩

/-- The written counters, in the order of their keys. -/
def toList (c : Counters) : List (String × Int64) := c.values.entries

/-- A counter's value, if it has been written. -/
def value? (c : Counters) (key : String) : Option Int64 := c.values.get? key

/-- A counter's value, zero if it has not been written. -/
def get (c : Counters) (key : String) : Int64 := (c.value? key).getD 0

def contains (c : Counters) (key : String) : Bool := c.values.contains key

def set (c : Counters) (key : String) (value : Int64) : Counters := ⟨c.values.insert key value⟩

/-- Writes a counter unless it has been written before. -/
def seed (c : Counters) (key : String) (value : Int64) : Counters :=
  if c.contains key then c else c.set key value

def size (c : Counters) : Nat := c.values.size

def isEmpty (c : Counters) : Bool := c.toList.isEmpty

@[simp] theorem value?_set (c : Counters) (key other : String) (value : Int64) :
    (c.set key value).value? other = if other = key then some value else c.value? other :=
  SortedMap.get?_insert c.values key other value

@[simp] theorem contains_set (c : Counters) (key other : String) (value : Int64) :
    (c.set key value).contains other = (decide (other = key) || c.contains other) := by
  by_cases h : other = key <;> simp [set, contains, SortedMap.contains, h]

@[simp] theorem value?_seed (c : Counters) (key other : String) (value : Int64) :
    (c.seed key value).value? other =
      if other = key then some ((c.value? key).getD value) else c.value? other := by
  unfold seed
  by_cases h : other = key
  · subst h
    cases hv : c.value? other <;>
      simp_all [contains, SortedMap.contains, value?, set]
  · split <;> simp [h]

end Counters

/-- Flags and counters together: all that gates can ask about. -/
structure World where
  flags : Flags
  counters : Counters
  deriving DecidableEq, Inhabited

end Dialogue
