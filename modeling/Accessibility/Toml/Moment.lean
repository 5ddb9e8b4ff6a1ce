import Accessibility.Number.Decimal
import Accessibility.Toml.Reader

/-! Dates and times of a configuration text: a date of the calendar, a time of day,
or a date with a time and perhaps an offset. A time may have a leap second and a
fraction of a second. A moment stands in the text as it is, or a table states it in
words: under a name set aside for that, as a string. -/
namespace Accessibility.Toml.Moment

open Reader

/-- The number that exactly `count` digits write. -/
def digits (count : Nat) : Reader Nat := do
  let cs ← (List.replicate count ()).mapM fun _ => satisfy Char.isDigit
  return Numeral.ofDigits cs

/-- A number of two digits, at most the given one. -/
def twoDigits (most : Nat) : Reader Unit := do
  let number ← digits 2
  if number ≤ most then return () else failure

def isLeapYear (year : Nat) : Bool := year % 4 = 0 && (year % 100 ≠ 0 || year % 400 = 0)

def daysIn (year month : Nat) : Nat :=
  if month = 2 then if isLeapYear year then 29 else 28
  else if month = 4 || month = 6 || month = 9 || month = 11 then 30
  else 31

/-- A date that the calendar has. -/
def date : Reader Unit := do
  let year ← digits 4
  char '-'
  let month ← digits 2
  char '-'
  let day ← digits 2
  if 1 ≤ month ∧ month ≤ 12 ∧ 1 ≤ day ∧ day ≤ daysIn year month then return () else failure

/-- A time of day. -/
def time : Reader Unit := do
  twoDigits 23
  char ':'
  twoDigits 59
  char ':'
  twoDigits 60
  let _ ← optional? do
    char '.'
    run1 Char.isDigit

/-- The offset of a time from the universal one. -/
def offset : Reader Unit :=
  (do let _ ← satisfy fun c => c = 'Z' || c = 'z') <|> do
    let _ ← satisfy fun c => c = '+' || c = '-'
    twoDigits 23
    char ':'
    twoDigits 59

/-- A time behind a date. -/
def timeOfDate : Reader Unit := do
  let _ ← satisfy fun c => c = 'T' || c = 't' || c = ' '
  time
  let _ ← optional? offset

/-- A date, a time or both, as written. -/
def moment : Reader String := do
  let dated : Reader Unit := do
    date
    let _ ← optional? timeOfDate
  let (_, text) ← withText (dated <|> time)
  return String.ofList text

/-! ## Moments that tables state -/

/-- The name under which a table states a moment. -/
def statementName : String := "$__toml_private_datetime"

/-- Whether a string states a moment: it writes one, and nothing else. -/
def isStatement (text : String) : Bool :=
  ((moment <* atEnd) text.toList).isSome

end Accessibility.Toml.Moment
