import Accessibility.Text.LowerCase
import Accessibility.Text.PrintTable

/-! Names in messages that list them: each in double quotes, with a backslash
before a quote or a backslash, short escapes for the common controls, and the code
point in braces for whatever would not show by itself. -/
namespace Accessibility.Quoted

/-- A character that would not show, or would merge into the one before it. -/
def isHidden (c : Char) : Bool :=
  LowerCase.within PrintTable.hiddenRuns c.toNat ||
    LowerCase.within PrintTable.extendingRuns c.toNat

/-- The code point of a character, in lower-case hexadecimal between braces. -/
def codePoint (c : Char) : List Char :=
  ['\\', 'u', '\x7b'] ++ Nat.toDigits 16 c.toNat ++ ['\x7d']

/-- A character as it is written between quotes. -/
def escape (c : Char) : List Char :=
  if c = '\u0000' then ['\\', '0']
  else if c = '\t' then ['\\', 't']
  else if c = '\r' then ['\\', 'r']
  else if c = '\n' then ['\\', 'n']
  else if c = '"' || c = '\\' then ['\\', c]
  else if isHidden c then codePoint c
  else [c]

/-- A text in quotes. -/
def text (s : String) : String := String.ofList ('"' :: s.toList.flatMap escape ++ ['"'])

/-- A list in brackets, its items already written. -/
def list (items : List String) : String := "[" ++ ", ".intercalate items ++ "]"

/-- A list of quoted texts in brackets. -/
def texts (names : List String) : String := list (names.map text)

end Accessibility.Quoted
