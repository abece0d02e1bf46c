import Dialogue.Story.Loading
/-!
# Files

The files and folders that a command can see. A place is the list of names on the way to it from the
top. A path leads from the working folder to a place, or from the top if it begins with a slash; a
single dot stays, and two dots go up.
-/

namespace Dialogue.CommandLine

/-- Whether a path ends in a slash, so that it can only name a folder. -/
def endsInSlash (path : String) : Bool := path.toList.getLast? = some '/'

/-- The names that a path consists of. A slash at the end stands for a single dot. -/
def pathNames (path : String) : List String :=
  (path.splitOn "/").filter (· ≠ "") ++ (if endsInSlash path then ["."] else [])

/-- What follows the last dot of characters, and what stands before it. -/
def splitAtLastDot? (cs : List Char) : Option (List Char × List Char) :=
  match cs.reverse.takeWhile (· ≠ '.'), cs.reverse.dropWhile (· ≠ '.') with
  | _, [] => none
  | extension, _ :: stem => some (stem.reverse, extension.reverse)

/-- The extension of a file's name: what follows its last dot, if anything stands before that. -/
def extension? (name : String) : Option String :=
  match splitAtLastDot? name.toList with
  | none | some ([], _) => none
  | some (_ :: _, extension) => some (String.ofList extension)

def pathExtension? (path : String) : Option String :=
  (((pathNames path).filter (· ≠ ".")).getLast?.filter (· ≠ "..")).bind extension?

/-- The greatest size of a name in bytes. -/
def nameLimit : Nat := 255

/-- The size in bytes that a path must stay below. -/
def pathLimit : Nat := 4096

/-- The place that a name leads to from a place. -/
def placeBehind (place : List String) (name : String) : List String :=
  if name = "." then place else if name = ".." then place.dropLast else place ++ [name]

/-- What lies at a place. -/
inductive Entry where
  | folder
  | file (contents : String)
  deriving DecidableEq

/-- The working folder, the files with their contents, and the folders. -/
structure Disk where
  home : List String
  files : List (List String × String)
  folders : List (List String)

namespace Disk

/-- The places on the way to a place, and that place. -/
def placesTo : List String → List (List String)
  | [] => [[]]
  | name :: names => [] :: (placesTo names).map (name :: ·)

/-- Some files in the working folder, and the folders that they lie in. The working folder has a
name that no path can spell. -/
def ofFiles (files : List (String × String)) : Disk where
  home := [""]
  files := files.map fun file => ("" :: (pathNames file.1).filter (· ≠ "."), file.2)
  folders := placesTo [""] ++ files.flatMap fun file =>
    placesTo ("" :: ((pathNames file.1).filter (· ≠ ".")).dropLast)

def entry? (d : Disk) (place : List String) : Option Entry :=
  if d.folders.contains place then some .folder else (d.files.lookup place).map .file

/-- Goes along names from a place where something lies. Only a folder can be left. -/
def follow (d : Disk) (place : List String) (entry : Entry) :
    List String → Except FileError (List String × Entry)
  | [] => .ok (place, entry)
  | name :: names =>
    match entry with
    | .file _ => .error .notADirectory
    | .folder =>
      if nameLimit < name.utf8ByteSize then .error .nameTooLong
      else
        match d.entry? (placeBehind place name) with
        | some entry => d.follow (placeBehind place name) entry names
        | none => .error .notFound

/-- The place that a path leads to, and what lies there. -/
def find (d : Disk) (path : String) : Except FileError (List String × Entry) :=
  if path = "" then .error .notFound
  else if pathLimit ≤ path.utf8ByteSize then .error .nameTooLong
  else d.follow (if path.toList.head? = some '/' then [] else d.home) .folder (pathNames path)

def isFile (d : Disk) (path : String) : Bool :=
  match d.find path with
  | .ok (_, .file _) => true
  | _ => false

def read (d : Disk) (path : String) : Except FileError String :=
  match d.find path with
  | .ok (_, .file contents) => .ok contents
  | .ok (_, .folder) => .error .isADirectory
  | .error e => .error e

/-- Whether a list of names comes before another, name by name. -/
def namesBefore : List String → List String → Bool
  | [], _ => true
  | _ :: _, [] => false
  | a :: as, b :: bs => if a = b then namesBefore as bs else a < b

def pathIn (folder : String) (names : List String) : String :=
  (if endsInSlash folder then folder else folder ++ "/") ++ "/".intercalate names

/-- The names of the files under a place, from that place on. -/
def namesUnder (d : Disk) (place : List String) : List (List String) :=
  d.files.filterMap fun file =>
    if place.isPrefixOf file.1 then some (file.1.drop place.length) else none

/-- The files in a folder and the folders in it, in order, that have one of some extensions. There
is no answer if the path leads to no folder. -/
def filesIn? (d : Disk) (folder : String) (extensions : List String) : Option (List String) :=
  match d.find folder with
  | .ok (place, .folder) =>
    let wanted := (d.namesUnder place).filter fun names =>
      match names.getLast?.bind extension? with
      | some extension => extensions.contains extension
      | none => false
    some ((wanted.mergeSort namesBefore).map (pathIn folder))
  | _ => none

end Disk

end Dialogue.CommandLine
