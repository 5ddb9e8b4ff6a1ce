import Accessibility.Toml.Reader

/-! Quoted text. Between double quotes a backslash begins an escape; between single
quotes every character stands for itself. Text between triple quotes may run over
several lines: a line end right behind the opening quotes does not count, a line end
is a line feed however it was written, one or two quotes are part of the text, and up
to two of them may stand right before the closing three. -/
namespace Accessibility.Toml.QuotedText

open Reader

/-- The value of a hexadecimal digit. -/
def hexValue (c : Char) : Nat :=
  if c.isDigit then c.toNat - '0'.toNat
  else if 'a' ≤ c then c.toNat - 'a'.toNat + 10
  else c.toNat - 'A'.toNat + 10

def isHexDigit (c : Char) : Bool :=
  c.isDigit || ('a' ≤ c && c ≤ 'f') || ('A' ≤ c && c ≤ 'F')

/-- The number that exactly `count` hexadecimal digits write. -/
def hexNumber : Nat → Nat → Reader Nat
  | 0, number => pure number
  | count + 1, number => do
    let digit ← satisfy isHexDigit
    hexNumber count (16 * number + hexValue digit)

/-- The character with a code point of `count` hexadecimal digits; surrogates and
numbers past the last character are refused. -/
def codePoint (count : Nat) : Reader Char := do
  let number ← hexNumber count 0
  if number.isValidChar then return Char.ofNat number else failure

/-- The character an escape stands for. -/
def escape : Reader Char := do
  char '\\'
  match ← satisfy fun _ => true with
  | 'b' => return '\x08'
  | 'f' => return '\x0c'
  | 'n' => return '\n'
  | 'r' => return '\r'
  | 't' => return '\t'
  | '"' => return '"'
  | '\\' => return '\\'
  | 'u' => codePoint 4
  | 'U' => codePoint 8
  | _ => failure

/-- A character that stands for itself between double quotes. -/
def isBasic (c : Char) : Bool := isPrintable c && c ≠ '"' && c ≠ '\\'

/-- A character that may stand between single quotes. -/
def isLiteral (c : Char) : Bool := isPrintable c && c ≠ '\''

/-- Text on one line between double quotes. -/
def basic : Reader (List Char) := do
  char '"'
  let text ← repeated (satisfy isBasic <|> escape)
  char '"'
  return text

/-- Text on one line between single quotes. -/
def literal : Reader (List Char) := do
  char '\''
  let text ← run isLiteral
  char '\''
  return text

/-- A line end within the text. -/
def innerNewline : Reader (List Char) := do
  newline
  return ['\n']

/-- A backslash at the end of a line takes the line end and all white space before
the next character with it. -/
def continuation : Reader (List Char) := do
  char '\\'
  blanks
  newline
  let _ ← repeated do
    let _ ← run1 isBlank <|> innerNewline
  return []

/-- One or two quotes within the text. -/
def innerQuotes (quote : Char) : Reader (List Char) := do
  let quotes ← run1 (· = quote)
  if quotes.length ≤ 2 then return quotes else failure

/-- The closing quotes, with those before them that belong to the text. -/
def closing (quote : Char) : Reader (List Char) := fun cs =>
  let count := min (cs.takeWhile (· = quote)).length 5
  if count < 3 then none else some (List.replicate (count - 3) quote, cs.drop count)

/-- Text between triple quotes, made of pieces. -/
def multiline (quote : Char) (piece : Reader (List Char)) : Reader (List Char) := do
  word [quote, quote, quote]
  let _ ← optional? newline
  let pieces ← repeated (piece <|> innerQuotes quote)
  let last ← closing quote
  return pieces.flatten ++ last

/-- A piece of text between triple double quotes. -/
def basicPiece : Reader (List Char) :=
  run1 isBasic <|> continuation <|> ([·]) <$> escape <|> innerNewline

/-- A piece of text between triple single quotes. -/
def literalPiece : Reader (List Char) := run1 isLiteral <|> innerNewline

/-- Quoted text of any form. -/
def text : Reader String := do
  let cs ← multiline '"' basicPiece <|> basic <|> multiline '\'' literalPiece <|> literal
  return String.ofList cs

end Accessibility.Toml.QuotedText
