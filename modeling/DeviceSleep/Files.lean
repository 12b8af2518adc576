import DeviceSleep.Text.Split

/-! Directories of files as values, and paths in them. All lie in one directory, the root; a path is
looked up from there if it begins with a slash, and else from the directory in which work is done. -/
namespace DeviceSleep
set_option autoImplicit false

/-- What a path leads to. -/
inductive FileState where
  | missing
  | directory
  /-- A file whose bytes are not text. -/
  | binary
  | text (content : String)
deriving DecidableEq, Repr

/-- Where files are looked up by their paths. -/
abbrev Disk := String → FileState

inductive Entry where
  | text (content : String)
  | binary
  | directory (entries : List (String × Entry))

/-- The content of a directory. -/
abbrev Directory := List (String × Entry)

/-- The files that there are, and the names that lead from the root to the directory in which work is
done. -/
structure Surroundings where
  root : Directory
  work : List String

/-! ## Paths -/

namespace Path

/-- The names between slashes; empty ones and single points stay where they are. -/
def parts (path : String) : List String := (Text.pieces '/' path.toList).map String.ofList

/-- The greatest number of bytes of a path. -/
def maxLength : Nat := 4095

/-- The greatest number of bytes of a name. -/
def maxNameLength : Nat := 255

/-- Whether a path can lead anywhere. -/
def isSound (path : String) : Bool :=
  !path.isEmpty && !path.contains '\x00' && path.utf8ByteSize ≤ maxLength &&
    (parts path).all fun part => part.utf8ByteSize ≤ maxNameLength

/-- A part that stays in the same directory. -/
def isIdle (part : String) : Bool := part == "" || part == "."

/-- The parts without idle ones at the end. -/
def trimmed (path : String) : List String := ((parts path).reverse.dropWhile isIdle).reverse

/-- The last part, unless it leads upwards or there is none. -/
def fileName? (path : String) : Option String :=
  match (trimmed path).getLast? with
  | some ".." => none
  | other => other

/-- The path of the file with a further ending, beside the file. -/
def withEnding (path ending : String) : Option String :=
  (fileName? path).map fun _ => "/".intercalate (trimmed path) ++ ending

/-- The text behind the last point of the file's name, unless the name begins with it. -/
def ending? (path : String) : Option String := do
  let name ← fileName? path
  match (Text.pieces '.' name.toList).reverse with
  | last :: _ :: _ =>
    if last.length + 1 < name.length then some (String.ofList last) else none
  | _ => none

end Path

/-! ## Directories -/

namespace Directory

def put (name : String) (entry : Entry) : Directory → Directory
  | [] => [(name, entry)]
  | (n, e) :: rest => if n = name then (n, entry) :: rest else (n, e) :: put name entry rest

/-- The directory at a place, if there is one. -/
def at? : List String → Directory → Option Directory
  | [], files => some files
  | name :: rest, files =>
    match List.lookup name files with
    | some (.directory entries) => at? rest entries
    | _ => none

/-- Changes the directory at a place, making it and those on the way if they are missing; `none` if a
file is in the way. -/
def inside (change : Directory → Option Directory) : List String → Directory → Option Directory
  | [], files => change files
  | name :: rest, files =>
    match List.lookup name files with
    | none => (inside change rest []).map fun inner => put name (.directory inner) files
    | some (.directory entries) =>
      (inside change rest entries).map fun inner => put name (.directory inner) files
    | some _ => none

/-- Adds a file; `none` if a directory stands in its place. -/
def addFile (name content : String) (files : Directory) : Option Directory :=
  match List.lookup name files with
  | some (.directory _) => none
  | _ => some (put name (.text content) files)

end Directory

/-! ## Looking up -/

namespace Path

def isAbsolute (path : String) : Bool := path.toList.head? == some '/'

/-- What the parts of a path lead to from a place. Above the root is the root. -/
def follow (root : Directory) : List String → List String → FileState
  | [], _ => .directory
  | part :: rest, place =>
    if isIdle part then follow root rest place
    else if part = ".." then follow root rest place.dropLast
    else
      match (Directory.at? place root).bind (List.lookup part) with
      | none => .missing
      | some (.directory _) => follow root rest (place ++ [part])
      | some (.text content) => if rest.isEmpty then .text content else .missing
      | some .binary => if rest.isEmpty then .binary else .missing

/-- Goes through the parts of a path from a place, making directories on the way; gives the place where
they end and what the root is then. -/
def enter : List String → List String → Directory → Option (List String × Directory)
  | [], place, root => some (place, root)
  | part :: rest, place, root =>
    if isIdle part then enter rest place root
    else if part = ".." then enter rest place.dropLast root
    else (Directory.inside some (place ++ [part]) root).bind (enter rest (place ++ [part]))

end Path

namespace Surroundings

/-- Where a path begins; a directory in which work is done may be gone. -/
def start (files : Surroundings) (path : String) : Option (List String) :=
  if Path.isAbsolute path then some []
  else (Directory.at? files.work files.root).map fun _ => files.work

def lookup (files : Surroundings) : Disk := fun path =>
  if Path.isSound path then
    (files.start path).elim .missing (Path.follow files.root (Path.parts path))
  else .missing

/-! ## Writing -/

/-- Writes a file, making the directories that its path needs. The path must end in a name. -/
def write (files : Surroundings) (path content : String) : Option Surroundings :=
  if Path.isSound path then
    match (Path.parts path).reverse with
    | [] => none
    | name :: outer =>
      if Path.isIdle name || name == ".." then none
      else do
        let place ← files.start path
        let (place, made) ← Path.enter outer.reverse place files.root
        let root ← Directory.inside (Directory.addFile name content) place made
        return { files with root }
  else none

/-- A directory in which work is done, with nothing around it. -/
def holding (files : Directory) : Surroundings := ⟨[("work", .directory files)], ["work"]⟩

end Surroundings

end DeviceSleep
