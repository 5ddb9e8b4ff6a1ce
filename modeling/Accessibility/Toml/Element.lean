import Accessibility.Toml.Moment
import Accessibility.Toml.Number
import Accessibility.Toml.Tree

/-! Keys and values as they are written. A key is a list of names with points between
them, each bare or quoted. An array may run over several lines, with comments and a
comma behind its last item; a table between braces stands on one line and allows
neither. Arrays and tables lie in each other to a limited depth. -/
namespace Accessibility.Toml.Element

open Reader

/-- Most names to a key. -/
def maxNames : Nat := 79

/-- Most arrays and tables around a value. -/
def maxDepth : Nat := 79

def isBare (c : Char) : Bool := c.isAlphanum || c = '_' || c = '-'

/-- One name of a key. -/
def name : Reader String :=
  String.ofList <$> (run1 isBare <|> QuotedText.basic <|> QuotedText.literal)

/-- A key with the blanks around its names. -/
def key : Reader (List String) := do
  let spaced : Reader String := do
    blanks
    let name ← name
    blanks
    return name
  let names ← separated1 spaced (char '.')
  if names.length ≤ maxNames then return names else failure

def boolean : Reader Bool :=
  (word ['t', 'r', 'u', 'e'] *> pure true) <|> (word ['f', 'a', 'l', 's', 'e'] *> pure false)

/-- A value that holds no others. What looks like a date is read as one. -/
def scalar : Reader Value :=
  .string <$> QuotedText.text <|> .datetime <$> Moment.moment <|> .float <$> Number.float <|>
    .integer <$> Number.integer <|> .boolean <$> boolean

/-- An array of what `item` reads. -/
def array (item : Reader Value) : Reader Value := do
  char '['
  let spaced : Reader Value := do
    gap
    let value ← item
    gap
    return value
  let items ← separated spaced (char ',')
  unless items.isEmpty do
    let _ ← optional? (char ',')
  gap
  char ']'
  return .array items

/-- A table between braces, with values that `item` reads. -/
def braced (item : Reader Value) : Reader Value := do
  char '\x7b'
  let entry : Reader (List String × Value) := do
    let key ← key
    char '='
    blanks
    let value ← item
    blanks
    return (key, value)
  let entries ← separated entry (char ',')
  blanks
  char '\x7d'
  match Fields.addAll [] entries with
  | some fields => return .table (Fields.finished fields)
  | none => failure

/-- A value with at most the given number of arrays and tables inside each other. -/
def nested : Nat → Reader Value
  | 0 => scalar
  | depth + 1 => scalar <|> array (nested depth) <|> braced (nested depth)

def value : Reader Value := nested maxDepth

end Accessibility.Toml.Element
