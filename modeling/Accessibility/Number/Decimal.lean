import Accessibility.Number.Binary

/-! Reading numbers from text. A decimal is an optional sign, digits with an
optional point, and an optional exponent; `inf`, `infinity` and `nan` stand for
themselves in any case. The value read is the nearest one of the kind asked for,
straight from the exact decimal. Whole numbers take an optional plus sign and
plain digits. -/
namespace Accessibility

/-- What a number's text says, before it is rounded to a format. -/
inductive Numeral where
  /-- `digits * 10 ^ exponent`. -/
  | decimal (signed : Bool) (digits : Nat) (exponent : Int)
  | infinity (signed : Bool)
  | notANumber (signed : Bool)
  deriving DecidableEq, Repr

namespace Numeral

def digitValue (c : Char) : Nat := c.toNat - '0'.toNat

/-- The whole number that decimal digits write. -/
def ofDigits (cs : List Char) : Nat := cs.foldl (fun n c => 10 * n + digitValue c) 0

/-- The leading sign, set for a minus, and what follows it. -/
def splitSign : List Char → Bool × List Char
  | '-' :: rest => (true, rest)
  | '+' :: rest => (false, rest)
  | cs => (false, cs)

/-- Leading digits and what follows them. -/
def splitDigits (cs : List Char) : List Char × List Char :=
  (cs.takeWhile Char.isDigit, cs.dropWhile Char.isDigit)

/-- An exponent at the end of a number: nothing, or `e`, an optional sign and at
least one digit. -/
def exponent? : List Char → Option Int
  | [] => some 0
  | c :: rest =>
    if c = 'e' || c = 'E' then
      let (minus, digits) := splitSign rest
      if digits.isEmpty || !digits.all Char.isDigit then none
      else
        let n : Int := ofDigits digits
        some (if minus then -n else n)
    else none

/-- Digits with an optional point among, before or behind them, and an optional
exponent. A point alone is no number. -/
def unsigned? (signed : Bool) (cs : List Char) : Option Numeral :=
  let (whole, rest) := splitDigits cs
  let (fraction, rest) :=
    match rest with
    | '.' :: rest => splitDigits rest
    | rest => ([], rest)
  if whole.isEmpty && fraction.isEmpty then none
  else
    (exponent? rest).map fun e =>
      .decimal signed (ofDigits (whole ++ fraction)) (e - fraction.length)

/-- Reads a number's text, the whole of it. -/
def ofText? (cs : List Char) : Option Numeral :=
  let (signed, body) := splitSign cs
  let word := body.map Char.toLower
  if word = "inf".toList || word = "infinity".toList then some (.infinity signed)
  else if word = "nan".toList then some (.notANumber signed)
  else unsigned? signed body

/-- Magnitude pattern nearest to `digits * 10 ^ exponent`. Past four hundred
places on either side every format has overflowed or vanished, and no power of ten
is formed. -/
def magnitude (f : BinaryFormat) (digits : Nat) (exponent : Int) : Nat :=
  if digits = 0 then 0
  else
    let places := ((Nat.toDigits 10 digits).length : Int) + exponent
    if 400 < places then f.infinity
    else if places < -400 then 0
    else if 0 ≤ exponent then f.round (digits * Nat.pow 10 exponent.toNat) 1
    else f.round digits (Nat.pow 10 (-exponent).toNat)

/-- Sign and magnitude pattern of a numeral in a format; NaN is the quiet one with
an empty payload. -/
def pattern (f : BinaryFormat) : Numeral → Bool × Nat
  | .decimal signed digits exponent => (signed, magnitude f digits exponent)
  | .infinity signed => (signed, f.infinity)
  | .notANumber signed => (signed, f.infinity + Nat.pow 2 (f.fractionBits - 1))

end Numeral

/-- The double a text writes, if it writes a number. -/
def Double.ofText? (s : String) : Option Double :=
  (Numeral.ofText? s.toList).map fun n =>
    let (signed, pattern) := n.pattern .double
    Double.ofMagnitude signed pattern

/-- The single a text writes, rounded once, straight from the text. -/
def Single.ofText? (s : String) : Option Single :=
  (Numeral.ofText? s.toList).map fun n =>
    let (signed, pattern) := n.pattern .single
    Single.ofMagnitude signed pattern

/-- The whole number below a limit that a text writes: an optional plus sign and
digits. -/
def wholeBelow? (limit : Nat) (s : String) : Option Nat :=
  let digits := match s.toList with
    | '+' :: rest => rest
    | cs => cs
  if digits.isEmpty || !digits.all Char.isDigit then none
  else
    let n := Numeral.ofDigits digits
    if n < limit then some n else none

/-- The 32-bit whole number a text writes. -/
def wholeOfText? (s : String) : Option UInt32 := (wholeBelow? UInt32.size s).map Nat.toUInt32

end Accessibility
