import Dialogue.CommandLine.Tool
/-!
# The command line

Brings in the files that a tool asks for, runs it, and prints what it leaves behind. The preview
shell answers each line as it is typed in.
-/

namespace Dialogue

open CommandLine

/-- An entry of a folder under the path that it was asked for with. -/
abbrev Found := IO.FS.DirEntry

/-- Adds what lies at a place to a disk, and what lies under it down to a depth. -/
def addTo (disk : Disk) (place : List String) (found : Found) : Nat → IO Disk
  | 0 => return disk
  | depth + 1 => do
    if ← found.path.isDir then
      let mut disk := { disk with folders := place :: disk.folders }
      if 0 < depth then
        for inner in ← found.path.readDir do
          disk ← addTo disk (place ++ [inner.fileName]) inner depth
      return disk
    else if ← found.path.pathExists then
      try
        let contents ← IO.FS.readFile found.path
        return { disk with files := (place, contents) :: disk.files }
      catch _ => return disk
    else return disk

/-- Adds what lies along names from a place, and what lies under the end of the way. -/
def addAlong (disk : Disk) (depth : Nat) (place : List String) (path : String) :
    List String → IO Disk
  | [] => addTo disk place ⟨".", path⟩ depth
  | name :: names => do
    let disk ← addTo disk place ⟨".", path⟩ 1
    addAlong disk depth (placeBehind place name) (path ++ "/" ++ name) names

def gather (depth : Nat) (paths : List String) : IO Disk := do
  let home := pathNames (← IO.currentDir).toString
  paths.foldlM (fun disk path =>
    if path.toList.head? = some '/' then addAlong disk depth [] "/" (pathNames path)
    else addAlong disk depth home "." (pathNames path)) ⟨home, [], []⟩

def folderDepth : Nat := 64

/-- Prints what a tool leaves behind. -/
def print (printout : Printout) : IO UInt32 := do
  IO.print printout.out
  IO.eprint printout.err
  return printout.code.toUInt32

def converse (s : Session) : IO Unit := do
  let input ← IO.getStdin
  let output ← IO.getStdout
  let mut session := some s
  while session.isSome do
    output.putStr Shell.prompt
    output.flush
    let line ← input.getLine
    match session with
    | some s =>
      if line.isEmpty then session := none
      else
        let (printed, next) := Shell.respondLine s line
        output.putStr (unlines printed)
        session := next
    | none => pure ()

def runTool (tool : Tool) (args : List String) : IO UInt32 := do
  let disk ← gather (if tool = .linter then folderDepth else 1) (Demo.treePath :: args)
  match tool with
  | .preview =>
    match Shell.start args disk with
    | .error printout => print printout
    | .ok s =>
      IO.print (unlines (Shell.opening s))
      converse s
      return 0
  | _ => print (tool.run args disk "")

end Dialogue

def main (args : List String) : IO UInt32 :=
  match args with
  | [] => Dialogue.print (.failure "Usage: preview|tree_linter|layout_dump|tavern ...\n")
  | name :: rest =>
    match Dialogue.CommandLine.Tool.ofName? name with
    | some tool => Dialogue.runTool tool rest
    | none => Dialogue.print (.failure ("Unknown tool: " ++ name ++ "\n"))
