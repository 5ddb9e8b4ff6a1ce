/-! Readers of a text: each takes what it recognises off the front of the text, or
fails and leaves it alone. Repetition is greedy and ends where the repeated reader
fails or takes nothing, so every reader ends. What may stand between the values of a
configuration text closes the module: blanks, comments and line ends. -/
namespace Accessibility.Toml

/-- Reads a value off the front of a text. -/
abbrev Reader := StateT (List Char) Option

namespace Reader

variable {α β : Type}

/-- The next character, if the condition holds of it. -/
def satisfy (p : Char → Bool) : Reader Char
  | c :: rest => if p c then some (c, rest) else none
  | [] => none

/-- The given character. -/
def char (c : Char) : Reader Unit := do let _ ← satisfy (· = c)

/-- The given characters, one after the other. -/
def word (cs : List Char) : Reader Unit := cs.forM char

/-- As many characters as the condition holds of. -/
def run (p : Char → Bool) : Reader (List Char) := fun cs => some (cs.takeWhile p, cs.dropWhile p)

/-- A run of at least one character. -/
def run1 (p : Char → Bool) : Reader (List Char) := do
  let first ← satisfy p
  let others ← run p
  return first :: others

/-- The end of the text. -/
def atEnd : Reader Unit
  | [] => some ((), [])
  | _ :: _ => none

/-- A value that may be missing. -/
def optional? (reader : Reader α) : Reader (Option α) := fun cs =>
  match reader cs with
  | some (a, rest) => some (some a, rest)
  | none => some (none, cs)

/-- The values a reader takes one after the other, and what is left. -/
def repeatedFrom (reader : Reader α) (cs : List Char) : List α × List Char :=
  match reader cs with
  | none => ([], cs)
  | some (a, rest) =>
    if _ : rest.length < cs.length then
      let (others, rest) := repeatedFrom reader rest
      (a :: others, rest)
    else ([], cs)
termination_by cs.length

/-- As many values as there are, one after the other. -/
def repeated (reader : Reader α) : Reader (List α) := fun cs => some (repeatedFrom reader cs)

/-- At least one value, with separators between them. A separator that no value
follows is left alone. -/
def separated1 (reader : Reader α) (separator : Reader Unit) : Reader (List α) := do
  let first ← reader
  let others ← repeated do
    separator
    reader
  return first :: others

/-- Values with separators between them, or none at all. -/
def separated (reader : Reader α) (separator : Reader Unit) : Reader (List α) := do
  let values? ← optional? (separated1 reader separator)
  return values?.getD []

/-- The value a reader takes, with the characters it took. -/
def withText (reader : Reader α) : Reader (α × List Char) := fun cs =>
  (reader cs).map fun (a, rest) => ((a, cs.take (cs.length - rest.length)), rest)

end Reader

/-! ## Between the values -/

def isBlank (c : Char) : Bool := c = ' ' || c = '\t'

/-- A character that may stand in a comment: no control other than a tab. -/
def isPrintable (c : Char) : Bool := c = '\t' || (0x20 ≤ c.toNat && c.toNat ≠ 0x7F)

def blanks : Reader Unit := do let _ ← Reader.run isBlank

/-- A line feed, alone or behind a carriage return. -/
def newline : Reader Unit := Reader.char '\n' <|> Reader.word ['\r', '\n']

def comment : Reader Unit := do
  Reader.char '#'
  let _ ← Reader.run isPrintable

/-- The end of a line, which the end of the text may stand for. -/
def lineEnd : Reader Unit := newline <|> Reader.atEnd

/-- What may follow on the line of a value or a header. -/
def restOfLine : Reader Unit := do
  blanks
  let _ ← Reader.optional? comment
  lineEnd

/-- What may stand around the items of an array: blanks, comments and line ends. -/
def gap : Reader Unit := do
  let blank : Reader Unit := do let _ ← Reader.run1 isBlank
  let commentLine : Reader Unit := do
    comment
    newline
  let _ ← Reader.repeated (blank <|> newline <|> commentLine)

end Accessibility.Toml
