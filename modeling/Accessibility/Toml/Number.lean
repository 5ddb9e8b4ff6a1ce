import Accessibility.Number.Decimal
import Accessibility.Toml.QuotedText

/-! Numbers of a configuration text. Single underscores may stand between digits. A
whole number has no leading zeros, unless it is written with a base, and then it has
no sign; it must fit 64 bits. A float has digits on both sides of its point, or an
exponent; one that lies above every double is refused. -/
namespace Accessibility.Toml.Number

open Reader

/-- A digit, with the underscore that may stand before it. -/
def nextDigit (isDigit : Char → Bool) : Reader Char :=
  satisfy isDigit <|> do
    char '_'
    satisfy isDigit

/-- Digits, without the underscores between them. -/
def digits (isDigit : Char → Bool) : Reader (List Char) := do
  let first ← satisfy isDigit
  let others ← repeated (nextDigit isDigit)
  return first :: others

/-- A sign, as it was written. -/
def sign : Reader (List Char) := do
  let sign? ← optional? (satisfy fun c => c = '+' || c = '-')
  return sign?.toList

/-- Decimal digits without leading zeros. -/
def plainDigits : Reader (List Char) := do
  let first ← satisfy Char.isDigit
  if first = '0' then return ['0']
  else
    let others ← repeated (nextDigit Char.isDigit)
    return first :: others

def least : Int := -0x8000000000000000
def greatest : Int := 0x7FFFFFFFFFFFFFFF

/-- A number that fits 64 bits. -/
def fitting (number : Int) : Reader Int :=
  if least ≤ number ∧ number ≤ greatest then return number else failure

/-- A whole number in decimal digits. -/
def decimalInteger : Reader Int := do
  let sign ← sign
  let number : Int := Numeral.ofDigits (← plainDigits)
  fitting (if sign = ['-'] then -number else number)

/-- A whole number behind the letter of its base. -/
def basedInteger (letter : Char) (base : Nat) (isDigit : Char → Bool) : Reader Int := do
  word ['0', letter]
  let digits ← digits isDigit
  fitting (digits.foldl (fun number c => base * number + QuotedText.hexValue c) 0 : Nat)

def integer : Reader Int :=
  basedInteger 'x' 16 QuotedText.isHexDigit <|>
    basedInteger 'o' 8 (fun c => '0' ≤ c && c ≤ '7') <|>
    basedInteger 'b' 2 (fun c => c = '0' || c = '1') <|>
    decimalInteger

/-- An exponent with its mark. -/
def exponent : Reader (List Char) := do
  let mark ← satisfy fun c => c = 'e' || c = 'E'
  let sign ← sign
  let digits ← digits Char.isDigit
  return mark :: sign ++ digits

/-- A point with the digits behind it. -/
def fraction : Reader (List Char) := do
  char '.'
  let digits ← digits Char.isDigit
  return '.' :: digits

/-- What makes a number a float: a fraction, an exponent, or one behind the other. -/
def floatTail : Reader (List Char) :=
  exponent <|> do
    let fraction ← fraction
    let exponent? ← optional? exponent
    return fraction ++ exponent?.getD []

/-- A float in decimal digits. -/
def decimalFloat : Reader Double := do
  let sign ← sign
  let whole ← plainDigits
  let tail ← floatTail
  match Double.ofText? (String.ofList (sign ++ whole ++ tail)) with
  | some number =>
    if number = Double.ofMagnitude false BinaryFormat.double.infinity then failure
    else return number
  | none => failure

/-- Infinity or not a number, by name. -/
def namedFloat : Reader Double := do
  let sign ← sign
  let name ← (word ['i', 'n', 'f'] *> pure ['i', 'n', 'f']) <|>
    (word ['n', 'a', 'n'] *> pure ['n', 'a', 'n'])
  match Double.ofText? (String.ofList (sign ++ name)) with
  | some number => return number
  | none => failure

def float : Reader Double := decimalFloat <|> namedFloat

end Accessibility.Toml.Number
