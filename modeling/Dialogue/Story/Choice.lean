import Dialogue.Story.Gate
/-!
# Choices

What a player can answer at a node, and what taking the answer does: flags and counters change, and
the conversation ends or goes on elsewhere.
-/

namespace Dialogue

/-- How an adjustment combines a counter with its value. -/
inductive Operation where
  | add
  | subtract
  | set
  deriving DecidableEq, Inhabited

namespace Operation

/-- The operation of a name. Any name that is not known sets the counter. -/
def ofName (name : String) : Operation :=
  if name = "add" then add
  else if name = "subtract" then subtract
  else set

def name : Operation → String
  | add => "add"
  | subtract => "subtract"
  | set => "set"

/-- Combines a counter's value with another. Sums and differences stop at the bounds of 64 bits. -/
def apply (operation : Operation) (current value : Int64) : Int64 :=
  match operation with
  | add => Int64.ofIntClamp (current.toInt + value.toInt)
  | subtract => Int64.ofIntClamp (current.toInt - value.toInt)
  | set => value

@[simp] theorem ofName_name (operation : Operation) : ofName operation.name = operation := by
  cases operation <;> rfl

end Operation

/-- A change of one counter. -/
structure Adjustment where
  key : String
  value : Int64
  operation : Option Operation
  deriving DecidableEq, Inhabited

namespace Adjustment

/-- The operation of an adjustment: without one the counter is set. -/
def effective (a : Adjustment) : Operation := a.operation.getD .set

def apply (a : Adjustment) (counters : Counters) : Counters :=
  counters.set a.key (a.effective.apply (counters.get a.key) a.value)

end Adjustment

/-- The flags that a choice sets and clears. -/
structure FlagChanges where
  add : Option (List String)
  remove : Option (List String)
  deriving DecidableEq, Inhabited

namespace FlagChanges

def added (c : FlagChanges) : List String := c.add.getD []

def removed (c : FlagChanges) : List String := c.remove.getD []

/-- The flags after the changes. Flags are cleared before others are set. -/
def apply (c : FlagChanges) (flags : Flags) : Flags :=
  c.added.foldl Flags.set (c.removed.foldl Flags.clear flags)

end FlagChanges

/-- Another destination, taken in place of the choice's own if its gate is open. -/
structure Detour where
  target : String
  gate : Gate
  deriving DecidableEq, Inhabited

/-- The end of a conversation, with the status that is reported. -/
structure Exit where
  status : String
  deriving DecidableEq, Inhabited

/-- An answer that is offered at a node. Its target may be empty or name no node while a tree is
being edited. -/
structure Choice where
  id : String
  text : String
  target : String
  gate : Option Gate
  flagChanges : Option FlagChanges
  adjustments : Option (List Adjustment)
  detours : Option (List Detour)
  exit : Option Exit
  deriving DecidableEq, Inhabited

instance : Gated Detour := ⟨fun d => some d.gate⟩

instance : Gated Choice := ⟨Choice.gate⟩

namespace Choice

def leading (id text target : String) : Choice := ⟨id, text, target, none, none, none, none, none⟩

def ending (id text status : String) : Choice := { leading id text "" with exit := some ⟨status⟩ }

/-- The choice behind a gate. -/
def withGate (c : Choice) (gate : Gate) : Choice := { c with gate := some gate }

def withFlagChanges (c : Choice) (add remove : List String) : Choice :=
  { c with flagChanges := some ⟨some add, some remove⟩ }

/-- The adjustments of a choice, in order. -/
def counterAdjustments (c : Choice) : List Adjustment := c.adjustments.getD []

/-- The detours of a choice, in order. -/
def otherWays (c : Choice) : List Detour := c.detours.getD []

def withAdjustment (c : Choice) (a : Adjustment) : Choice :=
  { c with adjustments := some (c.counterAdjustments ++ [a]) }

def withDetour (c : Choice) (target : String) (gate : Gate) : Choice :=
  { c with detours := some (c.otherWays ++ [⟨target, gate⟩]) }

/-- The status that the choice ends with, if it is an exit. -/
def exitStatus (c : Choice) : Option String := c.exit.map (·.status)

/-- The targets that the choice can lead to: its own, then those of its detours. -/
def targets (c : Choice) : List String := c.target :: c.otherWays.map (·.target)

/-- The state of the story after the choice. The adjustments are made one after the other. -/
def effect (c : Choice) (w : World) : World where
  flags := match c.flagChanges with
    | none => w.flags
    | some changes => changes.apply w.flags
  counters := c.counterAdjustments.foldl (fun counters a => a.apply counters) w.counters

/-- Where the choice leads in a state of the story: to the first detour that is open, else to its
own target. -/
def destination (c : Choice) (w : World) : String :=
  match firstOpen c.otherWays w with
  | some detour => detour.target
  | none => c.target

end Choice

end Dialogue
