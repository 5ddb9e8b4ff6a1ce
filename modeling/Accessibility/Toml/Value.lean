import Accessibility.Number.Binary

/-! Values of a configuration text, and looking into them. A table is a list of
named values in which no name occurs twice, in the order in which the names came up. -/
namespace Accessibility.Toml

/-- A value. -/
inductive Value where
  | string (text : String)
  /-- A whole number of 64 bits. -/
  | integer (number : Int)
  | float (number : Double)
  | boolean (truth : Bool)
  /-- A date, a time of day or both, as it was written. -/
  | datetime (text : String)
  | array (items : List Value)
  | table (entries : List (String × Value))
  deriving Repr, Inhabited

/-- The named values of a table. -/
abbrev Table := List (String × Value)

namespace Value

/-- What kind of value it is, in a word. -/
def kind : Value → String
  | string _ => "string"
  | integer _ => "integer"
  | float _ => "float"
  | boolean _ => "boolean"
  | datetime _ => "datetime"
  | array _ => "array"
  | table _ => "table"

def string? : Value → Option String
  | string text => some text
  | _ => none

def integer? : Value → Option Int
  | integer number => some number
  | _ => none

/-- The number that a float or an integer stands for, an integer rounded to the
nearest double. -/
def number? : Value → Option Double
  | float number => some number
  | integer number => some (Double.ofInt number)
  | _ => none

def boolean? : Value → Option Bool
  | boolean truth => some truth
  | _ => none

def array? : Value → Option (List Value)
  | array items => some items
  | _ => none

def table? : Value → Option Table
  | table entries => some entries
  | _ => none

def isTable : Value → Bool
  | table _ => true
  | _ => false

end Value

namespace Table

/-- The value under a name. -/
def get? (table : Table) (name : String) : Option Value :=
  (table.find? (·.1 = name)).map (·.2)

/-- The value that a path of names leads to, each step but the first into a table
within the one before. An empty path leads nowhere. -/
def follow (table : Table) : List String → Option Value
  | [] => none
  | [name] => table.get? name
  | name :: rest =>
    match table.get? name with
    | some (.table inner) => follow inner rest
    | _ => none

/-- A name behind a path; a path that is empty text adds nothing. -/
def joined (path name : String) : String := if path.isEmpty then name else s!"{path}.{name}"

/-- Paths of all values that are not tables, behind a given path. A table without
values has none. -/
def leafPaths (path : String) : Table → List String
  | [] => []
  | (name, .table inner) :: rest => leafPaths (joined path name) inner ++ leafPaths path rest
  | (name, _) :: rest => joined path name :: leafPaths path rest

end Table

end Accessibility.Toml
