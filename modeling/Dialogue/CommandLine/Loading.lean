import Dialogue.CommandLine.Disk
import Dialogue.Layout.Form
/-!
# Loading from files

Trees and layout settings that lie in files, with errors in words.
-/

namespace Dialogue.CommandLine

/-- Loads a tree: from RON if the path has the extension for it, else from JSON. The error is given
in words. -/
def loadTree (d : Disk) (path : String) : Except String Tree :=
  match d.read path with
  | .error e => .error (LoadError.file e).message
  | .ok contents =>
    let loaded :=
      if pathExtension? path = some "ron" then Tree.ofRonText contents
      else Tree.ofJsonText contents
    loaded.mapError LoadError.message

/-- Loads layout settings. The error is given in words. -/
def loadSettings (d : Disk) (path : String) : Except String (Layout.Config Float) :=
  match d.read path with
  | .error e => .error ("failed to read layout config: " ++ e.message)
  | .ok contents =>
    (Ron.read (Layout.Config Float) contents).mapError fun e =>
      "failed to parse layout config: " ++ Ron.placedMessage e

end Dialogue.CommandLine
