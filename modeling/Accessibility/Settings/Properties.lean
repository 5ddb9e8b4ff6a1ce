import Accessibility.Fault
import Accessibility.Filing.Path
import Accessibility.Toml.Document

/-! Typed access to the values of a configuration text. A key names a value by the
path that leads to it, with points between the names. A key that is missing is
reported with the closest key there is; a value of another kind is a fault, and never
stands for a default. -/
namespace Accessibility

/-- The values of a configuration text, with the directory that relative paths in it
start from. -/
structure Properties where
  table : Toml.Table
  directory : Option Path := none
  deriving Repr, Inhabited

/-- What a property is expected to be. -/
inductive PropertyKind where
  | string
  | integer
  | number
  | boolean
  | integers
  | numbers
  | strings
  deriving DecidableEq, Repr

def PropertyKind.name : PropertyKind → String
  | string => "a string"
  | integer => "an integer"
  | number => "a number"
  | boolean => "a boolean"
  | integers => "an array of integers"
  | numbers => "an array of numbers"
  | strings => "an array of strings"

namespace Properties

/-- Why a property cannot be read. -/
inductive Refusal where
  /-- The text cannot be parsed. The parser's own description, which follows in the message, is
  left out. -/
  | malformed
  | missing (key : String) (keys : List String)
  | mistyped (key : String) (expected : PropertyKind) (found : Toml.Value)

def Refusal.fault : Refusal → Fault
  | malformed => .configuration "invalid TOML"
  | missing key keys =>
    match Suggestion.suggest? key keys with
    | some candidate => .configuration s!"missing property '{key}' (did you mean '{candidate}'?)"
    | none => .configuration s!"missing property '{key}'"
  | mistyped key expected found =>
    .configuration s!"property '{key}' should be {expected.name}, found {found.kind}"

/-- The properties of a configuration text. -/
def parse (text : String) : Outcome Properties :=
  match Toml.Table.ofText? text with
  | some table => .ok { table }
  | none => .error Refusal.malformed.fault

/-- The keys of all values that are not tables, in ascending order. -/
def keys (properties : Properties) : List String :=
  (Toml.Table.leafPaths "" properties.table).mergeSort fun a b => a ≤ b

/-- The names of a key, between its points. -/
def namesOf : List Char → List (List Char)
  | [] => [[]]
  | c :: rest =>
    if c = '.' then [] :: namesOf rest
    else
      match namesOf rest with
      | [] => [[c]]
      | name :: others => (c :: name) :: others

/-- The value a key leads to. -/
def get? (properties : Properties) (key : String) : Option Toml.Value :=
  properties.table.follow ((namesOf key.toList).map String.ofList)

def contains (properties : Properties) (key : String) : Bool := (properties.get? key).isSome

/-- The value of a key that has to be there. -/
def require (properties : Properties) (key : String) : Outcome Toml.Value :=
  match properties.get? key with
  | some value => .ok value
  | none => .error (Refusal.missing key properties.keys).fault

variable {α : Type}

/-- A property of the given kind. -/
def read (properties : Properties) (kind : PropertyKind) (convert : Toml.Value → Option α)
    (key : String) : Outcome α := do
  let value ← properties.require key
  match convert value with
  | some result => return result
  | none => throw (Refusal.mistyped key kind value).fault

/-- A property whose value is an array of items of one kind; the first item of
another kind is reported. -/
def readArray (properties : Properties) (kind : PropertyKind) (convert : Toml.Value → Option α)
    (key : String) : Outcome (List α) := do
  let items ← properties.read kind Toml.Value.array? key
  items.mapM fun item =>
    match convert item with
    | some result => .ok result
    | none => .error (Refusal.mistyped key kind item).fault

def string (properties : Properties) : String → Outcome String :=
  properties.read .string Toml.Value.string?

def integer (properties : Properties) : String → Outcome Int :=
  properties.read .integer Toml.Value.integer?

def number (properties : Properties) : String → Outcome Double :=
  properties.read .number Toml.Value.number?

def boolean (properties : Properties) : String → Outcome Bool :=
  properties.read .boolean Toml.Value.boolean?

def integers (properties : Properties) : String → Outcome (List Int) :=
  properties.readArray .integers Toml.Value.integer?

def numbers (properties : Properties) : String → Outcome (List Double) :=
  properties.readArray .numbers Toml.Value.number?

def strings (properties : Properties) : String → Outcome (List String) :=
  properties.readArray .strings Toml.Value.string?

/-- What is read under a key, or a default where the key is missing. -/
def orDefault (properties : Properties) (reading : String → Outcome α) (key : String)
    (default : α) : Outcome α :=
  if properties.contains key then reading key else .ok default

/-- What is read under a key, if the key is there. -/
def ifPresent (properties : Properties) (reading : String → Outcome α) (key : String) :
    Outcome (Option α) :=
  if properties.contains key then (reading key).map some else .ok none

/-- A path; a relative one starts from the directory of the properties. -/
def path (properties : Properties) (key : String) : Outcome Path := do
  let text ← properties.string key
  match properties.directory with
  | some directory => return directory.join ⟨text⟩
  | none => return ⟨text⟩

end Properties

end Accessibility
