import Accessibility.Toml.Element
import Accessibility.Toml.Statement

/-! Configuration texts: lines with a key and its value, under headers that name the
table they belong to. A header in single brackets defines a table, one in double
brackets adds another table to those of its name. A text is read as a whole or
refused as a whole. -/
namespace Accessibility.Toml

open Reader

/-- What a line of a configuration text holds. -/
inductive Line where
  /-- Nothing, or only a comment. -/
  | empty
  | entry (key : List String) (value : Value)
  /-- The header of a table. -/
  | header (key : List String)
  /-- The header of one more of several tables. -/
  | element (key : List String)
  deriving Repr

namespace Line

/-- A line with a key and its value. -/
def entryLine : Reader Line := do
  let key ← Element.key
  char '='
  blanks
  let value ← Element.value
  restOfLine
  return .entry key value

def elementLine : Reader Line := do
  word ['[', '[']
  let key ← Element.key
  word [']', ']']
  restOfLine
  return .element key

def headerLine : Reader Line := do
  char '['
  let key ← Element.key
  char ']'
  restOfLine
  return .header key

/-- A line without content. The end of the text is no line. -/
def emptyLine : Reader Line :=
  (newline *> pure .empty) <|> do
    comment
    lineEnd
    return .empty

/-- One line, with the blanks in front of it. -/
def line : Reader Line := do
  blanks
  emptyLine <|> elementLine <|> headerLine <|> entryLine

end Line

/-- A table's header, or none for the top, with the entries below it. -/
structure Section where
  heading : Line
  entries : List (List String × Value)

namespace Section

/-- The entries before the first header, and the sections from there on. -/
def cut : List Line → List (List String × Value) × List Section
  | [] => ([], [])
  | .empty :: rest => cut rest
  | .entry key value :: rest =>
    let (entries, sections) := cut rest
    ((key, value) :: entries, sections)
  | heading :: rest =>
    let (entries, sections) := cut rest
    ([], ⟨heading, entries⟩ :: sections)

/-- The fields with those of one more section. -/
def place (fields : Fields) (part : Section) : Option Fields :=
  match part.heading with
  | .header key => key.getLast?.bind fun name => fields.define key.dropLast name part.entries
  | .element key => key.getLast?.bind fun name => fields.append key.dropLast name part.entries
  | _ => none

end Section

/-- The table that lines make up. -/
def Table.ofLines (lines : List Line) : Option Table := do
  let (entries, sections) := Section.cut lines
  let top ← Fields.addAll [] entries
  let fields ← sections.foldlM Section.place top
  Table.resolved (Fields.finished fields)

/-- The text without a leading byte order mark. -/
def withoutMark : List Char → List Char
  | '\uFEFF' :: rest => rest
  | cs => cs

/-- Every line of a text, up to its end. -/
def lines : Reader (List Line) := do
  let lines ← repeated Line.line
  blanks
  atEnd
  return lines

/-- The table a configuration text holds. -/
def Table.ofText? (text : String) : Option Table := do
  let (lines, _) ← lines (withoutMark text.toList)
  Table.ofLines lines

end Accessibility.Toml
