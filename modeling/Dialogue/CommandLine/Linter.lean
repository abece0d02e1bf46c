import Dialogue.CommandLine.Loading
import Dialogue.CommandLine.Printout
import Dialogue.Review.Lint
/-!
# Linting files

Prints the issues and the vocabulary of each tree in a file or a folder. The exit code tells whether
there were errors, or in strict mode whether there were issues at all.
-/

namespace Dialogue.CommandLine

namespace Linter

def usage : String := "Usage: tree_linter <tree_file|tree_dir> [--strict]"

/-- A line with names, unless there are none. -/
def namesLine (label : String) (names : List String) : List String :=
  if names.isEmpty then [] else [label ++ ": " ++ commaSeparated names]

/-- What is printed about a tree: warnings before errors. -/
def reportLines (path : String) (t : Tree) (r : Report) : List String :=
  let vocabulary := Vocabulary.of t
  ["", "=== " ++ path ++ " ('" ++ t.name ++ "', " ++ toString t.nodes.size ++ " nodes) ===", ""] ++
    (if r.isClean then ["All checks passed!"] else []) ++
    (r.warnings ++ r.errors).map Issue.line ++
    namesLine "Flags" vocabulary.flags ++ namesLine "State keys" vocabulary.counters

/-- What came of one file. A file that cannot be loaded is an error. -/
structure Finished where
  lines : List String
  errors : Nat
  warnings : Nat

def check (d : Disk) (path : String) : Finished :=
  match loadTree d path with
  | .error e => ⟨["ERROR: " ++ path ++ ": " ++ e], 1, 0⟩
  | .ok t =>
    let r := t.lint
    ⟨reportLines path t r, r.errors.length, r.warnings.length⟩

def targets? (d : Disk) (path : String) : Option (List String) :=
  if d.isFile path then some [path] else d.filesIn? path ["json", "ron"]

def run (args : List String) (d : Disk) : Printout :=
  match args with
  | [] | "--help" :: _ | "-h" :: _ => .success (unlines [usage])
  | path :: rest =>
    match targets? d path with
    | none => .failure (unlines ["ERROR: Path '" ++ path ++ "' does not exist"])
    | some paths =>
      let finished := paths.map (check d)
      let errors := finished.foldl (fun n f => n + f.errors) 0
      let warnings := finished.foldl (fun n f => n + f.warnings) 0
      let summary := "Summary: " ++ toString paths.length ++ " trees, " ++ toString errors ++
        " errors, " ++ toString warnings ++ " warnings"
      let failed := 0 < errors || (rest.contains "--strict" && 0 < warnings)
      ⟨if failed then 1 else 0, unlines (finished.flatMap (·.lines) ++ ["", summary]), ""⟩

end Linter

end Dialogue.CommandLine
