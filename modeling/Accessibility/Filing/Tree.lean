import Accessibility.Filing.Path

/-! A tree of files, and what the file operations do to it. Every operation first
follows its path from the top: each name on the way must be that of a directory, a
lone point stays and a double one goes back. Names and paths are of limited length, in
bytes. Operations that are refused leave the tree as it was. -/
namespace Accessibility

/-- Why the file system refuses an operation. -/
inductive FileFault where
  | notFound
  | alreadyExists
  | notDirectory
  | isDirectory
  /-- The place is in use, as a directory's entries for itself and the one above are. -/
  | busy
  | nameTooLong
  /-- A path holds the character that would end it. -/
  | pathCutShort
  /-- The bytes of a file are no text. -/
  | notText
  | other (text : String)
  deriving DecidableEq, Repr

def FileFault.message : FileFault → String
  | notFound => "No such file or directory (os error 2)"
  | alreadyExists => "File exists (os error 17)"
  | notDirectory => "Not a directory (os error 20)"
  | isDirectory => "Is a directory (os error 21)"
  | busy => "Device or resource busy (os error 16)"
  | nameTooLong => "File name too long (os error 36)"
  | pathCutShort => "file name contained an unexpected NUL byte"
  | notText => "stream did not contain valid UTF-8"
  | other text => text

/-- What stands at a place of a tree. -/
inductive Entry where
  | directory
  | file (bytes : List UInt8)
  deriving DecidableEq, Repr

/-- Files and directories by the names that lead to them from the top, which is a
directory itself. -/
structure FileTree where
  entries : List (List String × Entry)
  deriving DecidableEq, Repr, Inhabited

/-- What is found at a path. -/
inductive Presence where
  | absent
  | directory
  | file
  deriving DecidableEq, Repr

/-- What reading a file gives. -/
inductive Reading where
  | content (bytes : List UInt8)
  /-- There is nothing at the path to open. -/
  | unopened (fault : FileFault)
  /-- What is there cannot be read. -/
  | unreadable (fault : FileFault)
  deriving DecidableEq, Repr

namespace FileTree

def empty : FileTree := ⟨[]⟩

/-- What stands at a place. -/
def entry? (tree : FileTree) (place : List String) : Option Entry :=
  if place.isEmpty then some .directory
  else (tree.entries.find? (·.1 = place)).map (·.2)

/-- The tree without what stands at a place. -/
def erase (tree : FileTree) (place : List String) : FileTree :=
  ⟨tree.entries.filter (·.1 ≠ place)⟩

/-- The tree with another entry at a place. -/
def put (tree : FileTree) (place : List String) (entry : Entry) : FileTree :=
  ⟨(place, entry) :: (tree.erase place).entries⟩

/-- Most bytes of a name. -/
def maxNameBytes : Nat := 255

/-- Most bytes of a path. -/
def maxPathBytes : Nat := 4095

/-- Follows names from a place. Nothing needs to stand at the last of them. -/
def walk (tree : FileTree) (place : List String) : List String → Except FileFault (List String)
  | [] => .ok place
  | name :: rest =>
    match tree.entry? place with
    | none => .error .notFound
    | some (.file _) => .error .notDirectory
    | some .directory =>
      if name = "" || name = "." then tree.walk place rest
      else if name = ".." then tree.walk place.dropLast rest
      else if maxNameBytes < name.utf8ByteSize then .error .nameTooLong
      else tree.walk (place ++ [name]) rest

/-- The place a path leads to. -/
def locate (tree : FileTree) (path : Path) : Except FileFault (List String) :=
  if path.text.toList.contains '\u0000' then .error .pathCutShort
  else if path.text.isEmpty then .error .notFound
  else if maxPathBytes < path.text.utf8ByteSize then .error .nameTooLong
  else tree.walk [] path.pieces

/-- What is found at a path. -/
def probe (tree : FileTree) (path : Path) : Presence :=
  match tree.locate path with
  | .error _ => .absent
  | .ok place =>
    match tree.entry? place with
    | none => .absent
    | some .directory => .directory
    | some (.file _) => .file

/-- Reads a file. A directory can be opened, but not read. -/
def read (tree : FileTree) (path : Path) : Reading :=
  match tree.locate path with
  | .error fault => .unopened fault
  | .ok place =>
    match tree.entry? place with
    | none => .unopened .notFound
    | some .directory => .unreadable .isDirectory
    | some (.file bytes) => .content bytes

/-- Creates an empty file, or empties the one that is there. -/
def create (tree : FileTree) (path : Path) : Except FileFault FileTree := do
  let place ← tree.locate path
  match tree.entry? place with
  | some .directory => throw .isDirectory
  | _ => return tree.put place (.file [])

/-- Puts bytes into a file that is there. -/
def write (tree : FileTree) (path : Path) (bytes : List UInt8) : Except FileFault FileTree := do
  let place ← tree.locate path
  match tree.entry? place with
  | none => throw .notFound
  | some .directory => throw .isDirectory
  | some (.file _) => return tree.put place (.file bytes)

/-- Removes a file. -/
def remove (tree : FileTree) (path : Path) : Except FileFault FileTree := do
  let place ← tree.locate path
  match tree.entry? place with
  | none => throw .notFound
  | some .directory => throw .isDirectory
  | some (.file _) => return tree.erase place

/-- A path without slashes at its end. -/
def withoutSlashes (path : Path) : Path :=
  ⟨String.ofList (path.text.toList.reverse.dropWhile (· = '/')).reverse⟩

/-- Whether a path ends in a point or two, slashes aside. -/
def endsInPoints (path : Path) : Bool :=
  match (withoutSlashes path).pieces.getLast? with
  | some name => name = "." || name = ".."
  | none => false

/-- Moves a file to a path, in place of a file there, in one step. -/
def rename (tree : FileTree) (source target : Path) : Except FileFault FileTree := do
  let start ← tree.locate source
  let place ← tree.locate (withoutSlashes target)
  if endsInPoints target then throw .busy
  match tree.entry? start with
  | none => throw .notFound
  | some .directory => throw .isDirectory
  | some (.file bytes) =>
    if withoutSlashes target ≠ target then throw .notDirectory
    match tree.entry? place with
    | some .directory => throw .isDirectory
    | _ => return (tree.erase start).put place (.file bytes)

/-- Creates a directory where nothing is yet. -/
def createDirectory (tree : FileTree) (path : Path) : Except FileFault FileTree := do
  let place ← tree.locate path
  match tree.entry? place with
  | some _ => throw .alreadyExists
  | none => return tree.put place .directory

end FileTree

end Accessibility
