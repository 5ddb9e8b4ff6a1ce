import Accessibility.Toml.Value

/-! Tables under construction. A configuration text may fill a table in several
places, and whether it may depends on how the table came to be: by a header of its
own or braces, because a header named a table within it, or because a dotted key
did. A table is never defined twice, and a name never gets a second value. -/
namespace Accessibility.Toml

/-- How a table came to be. -/
inductive Origin where
  /-- By a header or by braces, which define it once and for all. -/
  | defined
  /-- On the way to a table that a header names. -/
  | implied
  /-- On the way to a value that a dotted key names. -/
  | dotted
  deriving DecidableEq, Repr

/-- What stands under a name while a table is built. -/
inductive Node where
  | leaf (value : Value)
  | table (origin : Origin) (fields : List (String × Node))
  /-- Tables under one name, in their order; the last of them is still open. -/
  | tables (items : List (List (String × Node)))

/-- The named nodes of a table. -/
abbrev Fields := List (String × Node)

namespace Fields

/-- The node under a name. -/
def get? (fields : Fields) (name : String) : Option Node :=
  (fields.find? (·.1 = name)).map (·.2)

/-- The fields with a node under a name, in place of the one before. -/
def put (fields : Fields) (name : String) (node : Node) : Fields :=
  match fields with
  | [] => [(name, node)]
  | (other, old) :: rest =>
    if other = name then (name, node) :: rest else (other, old) :: put rest name node

/-- The fields with a node under a name, behind all others. -/
def putLast (fields : Fields) (name : String) (node : Node) : Fields :=
  fields.filter (·.1 ≠ name) ++ [(name, node)]

/-- Changes the table that a path leads to, together with its origin; tables that
are missing on the way come to be with the origin `missing`. A path leads through
the last of several tables, and never through a value. A dotted key does not enter a
table that is already defined. -/
def changeAt (missing : Origin) (change : Origin → Fields → Option Fields) :
    List String → Origin → Fields → Option Fields
  | [], origin, fields => change origin fields
  | name :: path, _, fields =>
    match fields.get? name with
    | none => do
      let inner ← changeAt missing change path missing []
      return fields.put name (.table missing inner)
    | some (.leaf _) => none
    | some (.table origin inner) =>
      if missing = .dotted && origin = .defined then none
      else do
        let inner ← changeAt missing change path origin inner
        return fields.put name (.table origin inner)
    | some (.tables items) => do
      let inner ← changeAt missing change path .defined (items.getLastD [])
      return fields.put name (.tables (items.dropLast ++ [inner]))

/-- Adds a value under a key, whose last name must be new. A dotted key adds to a
table that dotted keys made, and to no other. -/
def add (fields : Fields) (path : List String) (name : String) (value : Value) : Option Fields :=
  let change (origin : Origin) (fields : Fields) : Option Fields :=
    if decide (origin = .dotted) = path.isEmpty then none
    else
      match fields.get? name with
      | some _ => none
      | none => some (fields.put name (.leaf value))
  changeAt .dotted change path .defined fields

/-- Adds values under keys; a key without names adds nothing anywhere. -/
def addAll (fields : Fields) (entries : List (List String × Value)) : Option Fields :=
  entries.foldlM (fun fields (key, value) => do
    let name ← key.getLast?
    fields.add key.dropLast name value) fields

/-- Fills the table that a header names. It must be new, or implied so far; its place
among the others is that of its own header. -/
def define (fields : Fields) (path : List String) (name : String)
    (entries : List (List String × Value)) : Option Fields :=
  let change (_ : Origin) (fields : Fields) : Option Fields :=
    match fields.get? name with
    | none => do
      let inner ← addAll [] entries
      return fields.put name (.table .defined inner)
    | some (.table .implied inner) => do
      let inner ← addAll inner entries
      return fields.putLast name (.table .defined inner)
    | some _ => none
  changeAt .implied change path .defined fields

/-- Fills one more of several tables under one name. -/
def append (fields : Fields) (path : List String) (name : String)
    (entries : List (List String × Value)) : Option Fields :=
  let change (_ : Origin) (fields : Fields) : Option Fields :=
    match fields.get? name with
    | none => do
      let inner ← addAll [] entries
      return fields.put name (.tables [inner])
    | some (.tables items) => do
      let inner ← addAll [] entries
      return fields.put name (.tables (items ++ [inner]))
    | some _ => none
  changeAt .implied change path .defined fields

end Fields

mutual

/-- The value a node stands for once everything is in place. -/
def Node.value : Node → Value
  | .leaf value => value
  | .table _ fields => .table (Fields.finished fields)
  | .tables items => .array (Fields.finishedAll items)

/-- The table that fields make up. -/
def Fields.finished : List (String × Node) → List (String × Value)
  | [] => []
  | (name, node) :: rest => (name, node.value) :: Fields.finished rest

def Fields.finishedAll : List (List (String × Node)) → List Value
  | [] => []
  | fields :: rest => .table (Fields.finished fields) :: Fields.finishedAll rest

end

end Accessibility.Toml
