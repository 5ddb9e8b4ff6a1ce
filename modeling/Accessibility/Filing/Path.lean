/-! Paths as texts with slashes. Slashes in a row count as one and a lone point in a
path as nothing, except at its start; whatever part of a path an operation keeps, it
keeps as it was written. -/
namespace Accessibility

/-- The path of a file or a directory. -/
structure Path where
  text : String
  deriving DecidableEq, Repr, Inhabited

namespace Path

instance : ToString Path := ⟨Path.text⟩

def isAbsolute (path : Path) : Bool := path.text.toList.head? = some '/'

/-- A path seen from a directory; an absolute path stands for itself. -/
def join (directory path : Path) : Path :=
  if path.isAbsolute then path
  else if directory.text.isEmpty || directory.text.toList.getLast? = some '/' then
    ⟨directory.text ++ path.text⟩
  else ⟨directory.text ++ "/" ++ path.text⟩

/-- The pieces of a path between its slashes. -/
def piecesOf : List Char → List (List Char)
  | [] => [[]]
  | c :: rest =>
    if c = '/' then [] :: piecesOf rest
    else
      match piecesOf rest with
      | [] => [[c]]
      | piece :: others => (c :: piece) :: others

def pieces (path : Path) : List String := (piecesOf path.text.toList).map String.ofList

/-- What stands at the start and is kept apart from the names: the slash of an
absolute path, or a lone point. -/
def leadOf (cs : List Char) : List Char :=
  match cs with
  | '/' :: _ => ['/']
  | ['.'] => ['.']
  | '.' :: '/' :: _ => ['.']
  | _ => []

/-- A path in reverse without the slashes and lone points at its end. -/
def withoutIdle : List Char → List Char
  | '/' :: rest => withoutIdle rest
  | ['.'] => []
  | '.' :: '/' :: rest => withoutIdle rest
  | cs => cs

/-- The parts of a path: its lead, what stands between that and the last name, and
the last name, which is empty where there is none. -/
def parts (path : Path) : List Char × List Char × List Char :=
  let cs := path.text.toList
  let lead := leadOf cs
  let body := withoutIdle (cs.drop lead.length).reverse
  (lead, (body.dropWhile (· ≠ '/')).reverse, (body.takeWhile (· ≠ '/')).reverse)

/-- The path of the directory that a path lies in; the top and an empty path lie in
none. -/
def parent? (path : Path) : Option Path :=
  let (lead, before, name) := path.parts
  if name.isEmpty then
    if lead = ['.'] then some ⟨""⟩ else none
  else some ⟨String.ofList (lead ++ (withoutIdle before.reverse).reverse)⟩

/-- A path and all the directories it lies in, nearest first; at most as many as
`bound` says. -/
def ancestorsWithin : Nat → Path → List Path
  | 0, path => [path]
  | bound + 1, path =>
    match path.parent? with
    | none => [path]
    | some parent => path :: ancestorsWithin bound parent

/-- A path and all the directories it lies in, nearest first. Each is shorter than
the one before it. -/
def ancestors (path : Path) : List Path := ancestorsWithin path.text.length path

/-- A name without its extension: the part before the last point, unless that is
empty. -/
def stemOf (name : List Char) : List Char :=
  if name.contains '.' then
    let before := ((name.reverse.dropWhile (· ≠ '.')).drop 1).reverse
    if before.isEmpty then name else before
  else name

/-- The path with another extension. The extension there is comes off first, and a path
that then ends in no name stays as it is: of two points and letters behind them, the
points are left, which lead one directory up. -/
def withExtension (path : Path) (extension : String) : Path :=
  let (lead, before, name) := path.parts
  if name.isEmpty || name = ['.', '.'] then path
  else if stemOf name = ['.'] && path.text.toList = lead ++ before ++ name then
    ⟨String.ofList (lead ++ before ++ ['.', '.'])⟩
  else ⟨String.ofList (lead ++ before ++ stemOf name) ++ "." ++ extension⟩

end Path

end Accessibility
