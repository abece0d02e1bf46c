import Dialogue.CommandLine.Loading
import Dialogue.CommandLine.Printout
import Dialogue.Ron.Printer
import Dialogue.Text.Padding
/-!
# Dumping a layout

Prints where the nodes and exits of a tree are placed, as a table or as a layout file.
-/

namespace Dialogue.CommandLine

namespace Dump

def usage : String :=
  "Usage: layout_dump <tree_file> [--config <layout.ron>] [--compact] [--ron]"

/-- What is asked of the command. -/
structure Request where
  settings : Option String
  mode : Layout.Mode
  asRon : Bool
  deriving DecidableEq

/-- The request without any options. -/
def Request.plain : Request := ⟨none, .firstDiscovery, false⟩

/-- Reads the options. The error is the argument that is none. -/
def options (r : Request) : List String → Except String Request
  | [] => .ok r
  | "--config" :: path :: rest => options { r with settings := some path } rest
  | "--compact" :: rest => options { r with mode := .compact } rest
  | "--ron" :: rest => options { r with asRon := true } rest
  | other :: _ => .error other

/-- A number with one place, brought to a width. -/
def tenths (width : Nat) (x : Float) : String := Text.padStart width (Number.fixed 1 x)

def nodeLine (card : Layout.Card Float) : String :=
  "  " ++ Text.padEnd 24 card.id ++ " depth " ++ Text.padStart 2 (toString card.depth) ++
    "  x " ++ tenths 7 card.position.x ++ "  y " ++ tenths 8 card.position.y ++
    "  h " ++ tenths 5 card.height

def exitLine (card : Layout.ExitCard Float) : String :=
  "  " ++ Text.padEnd 24 card.id ++ " exit      x " ++ tenths 7 card.position.x ++
    "  y " ++ tenths 8 card.position.y

/-- A layout as a table, with a count of what was placed. -/
def table (t : Tree) (l : Layout Float) : String :=
  unlines (["=== Layout of '" ++ t.name ++ "' (" ++ l.mode.name ++ ") ===", ""] ++
    l.nodes.map nodeLine ++ l.exits.map exitLine ++
    ["", toString l.nodes.length ++ " placed, " ++ toString (t.nodes.size - l.nodes.length) ++
      " unreachable, " ++ toString l.exits.length ++ " exits, " ++ toString l.edges.length ++
      " edges"])

def run (args : List String) (d : Disk) : Printout :=
  match args with
  | [] | "--help" :: _ | "-h" :: _ => .success (unlines [usage])
  | path :: rest =>
    match options .plain rest with
    | .error other => .failure (unlines ["Unknown argument: " ++ other])
    | .ok request =>
      match loadTree d path with
      | .error e => .failure (unlines ["ERROR: Failed to load tree '" ++ path ++ "': " ++ e])
      | .ok t =>
        match request.settings.elim (.ok Layout.standardSettings) (loadSettings d) with
        | .error e => .failure (unlines ["ERROR: " ++ e])
        | .ok settings =>
          let l := Layout.of t settings request.mode
          .success (if request.asRon then unlines [Ron.write l] else table t l)

end Dump

end Dialogue.CommandLine
