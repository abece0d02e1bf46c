import Dialogue.CommandLine.Demo
import Dialogue.CommandLine.Dump
import Dialogue.CommandLine.Linter
import Dialogue.CommandLine.Shell
/-!
# Tools

The commands by their names.
-/

namespace Dialogue.CommandLine

/-- A command. -/
inductive Tool where
  | preview
  | linter
  | dump
  | demo
  deriving DecidableEq

namespace Tool

def ofName? (name : String) : Option Tool :=
  if name = "preview" then some preview
  else if name = "tree_linter" then some linter
  else if name = "layout_dump" then some dump
  else if name = "tavern" then some demo
  else none

/-- Runs a tool with arguments, the files it can see and what is typed in. -/
def run (tool : Tool) (args : List String) (d : Disk) (typed : String) : Printout :=
  match tool with
  | preview => Shell.run args d typed
  | linter => Linter.run args d
  | dump => Dump.run args d
  | demo => Demo.run d

end Tool

end Dialogue.CommandLine
