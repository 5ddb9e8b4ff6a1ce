import Accessibility.Number.Binary

/-! The shortest decimal text of a binary number. The reals that round to a
finite magnitude `m * 2 ^ q` form an interval around it, its ends included exactly
when `m` is even. Grids of 1, 2, … significant digits are tried in turn: on each,
only the two neighbours of the value can lie in the interval, and the first grid
with a hit decides. Of two hits the nearer wins and a tie goes up. The text is
positional at every size. -/
namespace Accessibility.Shortest

/-- A magnitude with the interval of reals that round to it, all as numerators
over one denominator. -/
structure Target where
  value : Nat
  low : Nat
  high : Nat
  den : Nat
  /-- Whether the ends themselves round to the value. -/
  closed : Bool
  deriving Repr

/-- The rounding interval of a nonzero finite pattern. Below a power of two the
neighbour is half as far away as above, except on the finest grid. -/
def target (f : BinaryFormat) (pattern : Nat) : Target :=
  let (m, q) := f.unpack pattern
  let narrowBelow := m = Nat.pow 2 f.fractionBits && f.leastQuantum < q
  let (scale, den) := BinaryFormat.scaled 1 4 q
  { value := 4 * m * scale
    low := (4 * m - if narrowBelow then 1 else 2) * scale
    high := (4 * m + 2) * scale
    den := den
    closed := m % 2 = 0 }

/-- Whether `num / den` rounds to the target. -/
def Target.holds (t : Target) (num den : Nat) : Bool :=
  let below := t.low * den
  let at_ := num * t.den
  let above := t.high * den
  if t.closed then below ≤ at_ && at_ ≤ above else below < at_ && at_ < above

/-- `10 ^ e` as a ratio of whole numbers. -/
def powerOfTen (e : Int) : Nat × Nat :=
  if 0 ≤ e then (Nat.pow 10 e.toNat, 1) else (1, Nat.pow 10 (-e).toNat)

/-- The neighbour of the value on the grid `10 ^ e` that rounds to it, if there is
one: of two the nearer, and the upper one when they are equally near. -/
def Target.onGrid (t : Target) (e : Int) : Option Nat :=
  let (num, den) := powerOfTen e
  let lower := t.value * den / (t.den * num)
  let rest := t.value * den % (t.den * num)
  let hitLower := t.holds (lower * num) den
  let hitUpper := t.holds ((lower + 1) * num) den
  if hitLower && hitUpper then
    some (if 2 * rest < t.den * num then lower else lower + 1)
  else if hitLower then some lower
  else if hitUpper then some (lower + 1)
  else none

/-- Number of decimal digits of a whole number; one for zero. -/
def digitCount (n : Nat) : Nat := (Nat.toDigits 10 n).length

/-- Exponent of the greatest power of ten that is at most `num / den`. -/
def decimalOrder (num den : Nat) : Int :=
  let guess := (digitCount num : Int) - (digitCount den : Int)
  let (n, d) := powerOfTen guess
  if num * d < n * den then guess - 1 else guess

/-- The coarsest of `count` grids, from `10 ^ e` downwards, that has a hit. -/
def Target.search (t : Target) : Nat → Int → Nat × Int
  | 0, e => (t.value * Nat.pow 10 (-e).toNat / t.den, e)
  | count + 1, e =>
    match t.onGrid e with
    | some digits => (digits, e)
    | none => t.search count (e - 1)

/-- Fewest significant digits that read back as a nonzero finite pattern, with
the power of ten of the last one. Seventeen digits always suffice. -/
def digits (f : BinaryFormat) (pattern : Nat) : Nat × Int :=
  let t := target f pattern
  t.search 17 (decimalOrder t.value t.den)

/-- `digits * 10 ^ e` written out, without an exponent and without trailing zeros
after the point. -/
def positional (digits : Nat) (e : Int) : String :=
  let text := Nat.toDigits 10 digits
  if 0 ≤ e then String.ofList (text ++ List.replicate e.toNat '0')
  else
    let places := (-e).toNat
    let padded := List.replicate (places + 1 - text.length) '0' ++ text
    let whole := padded.take (padded.length - places)
    let fraction := (padded.drop (padded.length - places)).reverse.dropWhile (· = '0')
    if fraction.isEmpty then String.ofList whole
    else String.ofList (whole ++ '.' :: fraction.reverse)

/-- Text of a signed pattern: the sign of a zero is kept and that of NaN is not. -/
def text (f : BinaryFormat) (signed : Bool) (pattern : Nat) : String :=
  if f.infinity < pattern then "NaN"
  else
    let body :=
      if pattern = f.infinity then "inf"
      else if pattern = 0 then "0"
      else
        let (n, e) := digits f pattern
        positional n e
    if signed then "-" ++ body else body

end Accessibility.Shortest

namespace Accessibility

/-- Shortest text that reads back as the same double. -/
def Double.text (x : Double) : String :=
  Shortest.text .double x.signed x.magnitude

/-- Shortest text that reads back as the same single. -/
def Single.text (x : Single) : String :=
  Shortest.text .single x.signed x.magnitude

end Accessibility
