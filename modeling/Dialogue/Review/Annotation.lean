import Dialogue.Story.Tree
/-!
# Notes on choices

What an editor shows beside a choice: whether it leads nowhere, what its gate asks for, and why it is
locked at the moment.
-/

namespace Dialogue

def commaSeparated (items : List String) : String := ", ".intercalate items

namespace Tree

/-- Whether a choice is no exit and its target leads to no node. -/
def isDangling (t : Tree) (c : Choice) : Bool := c.exit.isNone && !t.hasNode c.target

end Tree

namespace Gate

/-- What a gate asks for, in words. Of the conditions on counters there are none. -/
def summary (g : Gate) : Option String :=
  if !g.requiredFlags.isEmpty || !g.counterConditions.isEmpty then
    some ("Required: " ++ commaSeparated g.requiredFlags ++
      (if g.blockedFlags.isEmpty then ""
        else "\nBlocked by: " ++ commaSeparated g.blockedFlags))
  else if !g.blockedFlags.isEmpty then
    some ("Can be blocked by: " ++ commaSeparated g.blockedFlags)
  else none

/-- Why a gate may be closed under some flags: a required flag that is not set, a blocked flag that
is set, and any condition on counters, whether it holds or not. -/
def reasons (g : Gate) (flags : Flags) : List String :=
  (if g.requiredFlags.all flags.contains then []
    else ["Required flags: " ++ commaSeparated g.requiredFlags]) ++
  (if g.blockedFlags.any flags.contains then
    ["Blocked by flags: " ++ commaSeparated g.blockedFlags] else []) ++
  (if g.counterConditions.isEmpty then [] else ["State conditions not met"])

end Gate

/-- The note on a choice in the graph: its exit, or that it leads nowhere, or what its gate asks
for. -/
def Tree.tooltip (t : Tree) (c : Choice) : Option String :=
  match c.exitStatus with
  | some status => some ("Exit: " ++ status)
  | none => if t.isDangling c then some "Missing target node!" else c.gate.bind Gate.summary

/-- Why a choice may be locked under some flags, one reason to a line. -/
def Choice.lockedReason (c : Choice) (flags : Flags) : Option String :=
  match c.gate with
  | none => none
  | some gate =>
    match gate.reasons flags with
    | [] => none
    | reasons => some ("\n".intercalate reasons)

end Dialogue
