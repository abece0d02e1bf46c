/-!
# Printouts

What a command leaves behind when it is done.
-/

namespace Dialogue.CommandLine

/-- What a command leaves behind: its exit code and what it printed. -/
structure Printout where
  code : Nat
  out : String
  err : String
  deriving DecidableEq

namespace Printout

def success (out : String) : Printout := ⟨0, out, ""⟩

def failure (err : String) : Printout := ⟨1, "", err⟩

end Printout

/-- Lines of text, each ended. -/
def unlines (lines : List String) : String := String.join (lines.map (· ++ "\n"))

end Dialogue.CommandLine
