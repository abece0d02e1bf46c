import Dialogue.Story.World
/-!
# Gates

A gate decides from the state of the story whether something is on offer: every required flag is
set, no blocked flag is, and every condition on a counter holds. Wherever one of several candidates
is picked, it is the first whose gate is open; there is no other order of priority.
-/

namespace Dialogue

def comparisonSigns : List String := ["=", ">", "<", ">=", "<="]

/-- How a condition compares a counter with its value. -/
inductive Comparison where
  | equal
  | above
  | below
  | atLeast
  | atMost
  /-- Any other sign. It is kept as written and never holds. -/
  | other (sign : String) (unlisted : sign ∉ comparisonSigns)
  deriving DecidableEq

namespace Comparison

instance : Inhabited Comparison := ⟨equal⟩

def ofSign (sign : String) : Comparison :=
  if h₁ : sign = "=" then equal
  else if h₂ : sign = ">" then above
  else if h₃ : sign = "<" then below
  else if h₄ : sign = ">=" then atLeast
  else if h₅ : sign = "<=" then atMost
  else other sign (by simp [comparisonSigns, h₁, h₂, h₃, h₄, h₅])

def sign : Comparison → String
  | equal => "="
  | above => ">"
  | below => "<"
  | atLeast => ">="
  | atMost => "<="
  | other sign _ => sign

def isKnown : Comparison → Bool
  | other _ _ => false
  | _ => true

def holds (c : Comparison) (left right : Int64) : Bool :=
  match c with
  | equal => left = right
  | above => right < left
  | below => left < right
  | atLeast => right ≤ left
  | atMost => left ≤ right
  | other _ _ => false

@[simp] theorem ofSign_sign (c : Comparison) : ofSign c.sign = c := by
  cases c with
  | other s h =>
    simp only [comparisonSigns, List.mem_cons, List.not_mem_nil, or_false, not_or] at h
    simp [sign, ofSign, h]
  | _ => rfl

end Comparison

/-- A comparison of a counter with a value. -/
structure Condition where
  key : String
  comparison : Comparison
  value : Int64
  deriving DecidableEq, Inhabited

/-- Whether the condition holds. A counter that was never written reads as zero. -/
def Condition.holds (condition : Condition) (counters : Counters) : Bool :=
  condition.comparison.holds (counters.get condition.key) condition.value

/-- What has to be the case. A list that was not written stays apart from one that was written
empty, though both ask for nothing. -/
structure Gate where
  required : Option (List String)
  blocked : Option (List String)
  conditions : Option (List Condition)
  deriving DecidableEq, Inhabited

namespace Gate

def free : Gate := ⟨none, none, none⟩

def requiredFlags (g : Gate) : List String := g.required.getD []

/-- The flags that must not be set. -/
def blockedFlags (g : Gate) : List String := g.blocked.getD []

def counterConditions (g : Gate) : List Condition := g.conditions.getD []

def isEmpty (g : Gate) : Bool :=
  g.requiredFlags.isEmpty && g.blockedFlags.isEmpty && g.counterConditions.isEmpty

def require (g : Gate) (flag : String) : Gate :=
  { g with required := some (g.requiredFlags ++ [flag]) }

def block (g : Gate) (flag : String) : Gate :=
  { g with blocked := some (g.blockedFlags ++ [flag]) }

def onlyIf (g : Gate) (condition : Condition) : Gate :=
  { g with conditions := some (g.counterConditions ++ [condition]) }

def isOpen (g : Gate) (w : World) : Bool :=
  g.requiredFlags.all w.flags.contains
    && !g.blockedFlags.any w.flags.contains
    && g.counterConditions.all fun condition => condition.holds w.counters

end Gate

/-- Whether an optional gate is open. No gate is always open. -/
def isOpen (gate : Option Gate) (w : World) : Bool :=
  match gate with
  | none => true
  | some g => g.isOpen w

/-- What is on offer behind a gate. -/
class Gated (α : Type) where
  gate : α → Option Gate

def firstOpen {α : Type} [Gated α] (candidates : List α) (w : World) : Option α :=
  candidates.find? fun candidate => isOpen (Gated.gate candidate) w

end Dialogue
