import TurtleCurves.Raster.Image
import TurtleCurves.Text.Lines

namespace TurtleCurves

/-!
# Directories

A working directory as a value: which folders and files there are, and what the files hold.
Paths are texts with slashes, as users write them; one that begins with a slash starts at the
root of the tree, every other one at the working directory.

* `Content`, `Node`, `Directory` — the tree;
* `Directory.locate` — where a path leads;
* `Directory.read`, `Directory.write`, `Directory.makeFolders` — the operations;
* `Change`, `Directory.perform`, `Directory.performAll` — the operations that change something,
  as data.
-/

/-- What a file holds. -/
inductive Content where
  | text (s : List Char)
  | bytes (b : ByteArray)
  | picture (image : Image)

/-- One entry of a directory. -/
inductive Node where
  | folder
  | file (content : Content)

/-- The name of one entry. -/
abbrev EntryName := List Char

/-- A tree of entries, each with the names that lead to it from the root, and a place in it. -/
structure Directory where
  /-- The names that lead to the working directory. -/
  here : List EntryName
  nodes : List (List EntryName × Node)

/-- Why a path cannot be used. -/
inductive StorageFault where
  /-- Nothing is there. -/
  | missing
  /-- A file stands where a folder is needed. -/
  | notFolder
  /-- A folder stands where a file is needed. -/
  | isFolder
  /-- Something is there already. -/
  | occupied
  /-- The file is no text. -/
  | undecodable
  /-- A name on the path has more than 255 bytes. -/
  | tooLong
  deriving DecidableEq, Repr

/-- The wording of a fault. -/
def StorageFault.message : StorageFault → String
  | .missing => "No such file or directory (os error 2)"
  | .notFolder => "Not a directory (os error 20)"
  | .isFolder => "Is a directory (os error 21)"
  | .occupied => "File exists (os error 17)"
  | .undecodable => "stream did not contain valid UTF-8"
  | .tooLong => "File name too long (os error 36)"

namespace Directory

/-- A working directory without entries. -/
def empty (here : List EntryName) : Directory := ⟨here, []⟩

/-! ### Finding -/

/-- What the given names lead to.  The working directory and the folders above it are there
from the beginning. -/
def find? (d : Directory) (names : List EntryName) : Option Node :=
  if names.isPrefixOf d.here then some .folder
  else (d.nodes.find? fun n => n.1 == names).map Prod.snd

/-- The name stands for the place itself. -/
def isHere (name : EntryName) : Bool := name = [] || name = ['.']

/-- The name stands for the folder above. -/
def isAbove (name : EntryName) : Bool := name = ['.', '.']

/-- The name has more than 255 bytes. -/
def isTooLong (name : EntryName) : Bool := 255 < (String.ofList name).utf8ByteSize

/-- Follows names from a place; all but the last have to lead to folders. -/
def follow (d : Directory) (place : List EntryName) :
    List EntryName → Except StorageFault (List EntryName)
  | [] => .ok place
  | name :: rest =>
    match d.find? place with
    | none => .error .missing
    | some (.file _) => .error .notFolder
    | some .folder =>
      if isHere name then d.follow place rest
      else if isAbove name then d.follow place.dropLast rest
      else if isTooLong name then .error .tooLong
      else d.follow (place ++ [name]) rest

/-- Where a path begins. -/
def startOf (d : Directory) : List Char → List EntryName
  | '/' :: _ => []
  | _ => d.here

/-- Where a path leads. -/
def locate (d : Directory) (path : List Char) : Except StorageFault (List EntryName) :=
  if path = [] then .error .missing else d.follow (d.startOf path) (Text.splitOn '/' path)

/-- The places that names lead through, a place on the way after the other. -/
def passed (place : List EntryName) : List EntryName → List (List EntryName)
  | [] => []
  | name :: rest =>
    if isHere name then passed place rest
    else if isAbove name then passed place.dropLast rest
    else (place ++ [name]) :: passed (place ++ [name]) rest

/-- The places that a path leads through. -/
def placesOn (d : Directory) (path : List Char) : List (List EntryName) :=
  passed (d.startOf path) (Text.splitOn '/' path)

/-- Something is at the path. -/
def contains (d : Directory) (path : List Char) : Bool :=
  match d.locate path with
  | .ok names => (d.find? names).isSome
  | .error _ => false

/-- The content of the file at the path. -/
def read (d : Directory) (path : List Char) : Except StorageFault Content := do
  match d.find? (← d.locate path) with
  | none => .error .missing
  | some .folder => .error .isFolder
  | some (.file content) => .ok content

/-! ### Changing -/

/-- The directory with a node in the place of what the names lead to. -/
def place (d : Directory) (names : List EntryName) (node : Node) : Directory :=
  { d with nodes := d.nodes.filter (fun n => !(n.1 == names)) ++ [(names, node)] }

/-- The directory with a file at the path. -/
def write (d : Directory) (path : List Char) (content : Content) :
    Except StorageFault Directory := do
  let names ← d.locate path
  match d.find? names with
  | some .folder => .error .isFolder
  | _ => .ok (d.place names (.file content))

/-- Follows names from a place and makes the folders that are not there. -/
def makeFrom (d : Directory) (place : List EntryName) :
    List EntryName → Except StorageFault Directory
  | [] => .ok d
  | name :: rest =>
    if isHere name then d.makeFrom place rest
    else if isAbove name then d.makeFrom place.dropLast rest
    else if isTooLong name then .error .tooLong
    else
      let there := place ++ [name]
      match d.find? there with
      | some .folder => d.makeFrom there rest
      | some (.file _) => .error (if rest = [] then .occupied else .notFolder)
      | none => (d.place there .folder).makeFrom there rest

/-- The directory with all folders on a path. -/
def makeFolders (d : Directory) (path : List Char) : Except StorageFault Directory :=
  if path = [] then .ok d else d.makeFrom (d.startOf path) (Text.splitOn '/' path)

/-! ### Changes as data -/

end Directory

/-- Something that is done to a directory. -/
inductive Change where
  /-- All folders on a path. -/
  | folders (path : List Char)
  /-- A file. -/
  | file (path : List Char) (content : Content)

namespace Directory

/-- The directory after a change. -/
def perform (d : Directory) : Change → Except StorageFault Directory
  | .folders path => d.makeFolders path
  | .file path content => d.write path content

/-- The directory after the changes up to the first one that fails, and the fault of that one. -/
def performAll (d : Directory) : List Change → Option StorageFault × Directory
  | [] => (none, d)
  | c :: rest =>
    match d.perform c with
    | .error fault => (some fault, d)
    | .ok d => d.performAll rest

/-! ### Listing -/

/-- Names with slashes between them. -/
def joinNames (names : List EntryName) : String := String.ofList (List.intercalate ['/'] names)

end Directory

/-- A name below a folder; a name that begins with a slash stands for itself. -/
def joinPath (folder name : List Char) : List Char :=
  match name with
  | '/' :: _ => name
  | _ =>
    if folder = [] ∨ folder.getLast? = some '/' then folder ++ name
    else folder ++ '/' :: name

end TurtleCurves
