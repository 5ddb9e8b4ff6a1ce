/-! Binary interchange formats and rounding to them. A format keeps a sign, a
biased exponent and a fraction; the magnitudes it holds are the multiples
`m * 2 ^ q` of a power of two with `m` at most one bit longer than the fraction.
`BinaryFormat.round` takes an exact ratio to the nearest of them, a tie going to
the even significand, in whole-number arithmetic only. -/
namespace Accessibility

/-- The shape of an interchange format: stored fraction bits and exponent bits. -/
structure BinaryFormat where
  fractionBits : Nat
  exponentBits : Nat
  deriving DecidableEq, Repr

namespace BinaryFormat

/-- Eight bytes: 52 fraction bits and 11 exponent bits. -/
def double : BinaryFormat := ⟨52, 11⟩

/-- Four bytes: 23 fraction bits and 8 exponent bits. -/
def single : BinaryFormat := ⟨23, 8⟩

/-- What the stored exponent exceeds the true one by. -/
def bias (f : BinaryFormat) : Nat := Nat.pow 2 (f.exponentBits - 1) - 1

/-- The exponent of the finest grid, on which the subnormal numbers lie. -/
def leastQuantum (f : BinaryFormat) : Int := 1 - (f.bias : Int) - (f.fractionBits : Int)

/-- The magnitude pattern of infinity: every exponent bit set and an empty
fraction. Finite magnitudes lie below it and the patterns of NaN above. -/
def infinity (f : BinaryFormat) : Nat := (Nat.pow 2 f.exponentBits - 1) * Nat.pow 2 f.fractionBits

/-- Whole number nearest to `num / den`; a tie goes to the even neighbour. -/
def roundQuotient (num den : Nat) : Nat :=
  let q := num / den
  let twice := 2 * (num % den)
  if twice < den then q
  else if twice > den then q + 1
  else if q % 2 = 0 then q else q + 1

/-- `num * 2 ^ e`, as a ratio of whole numbers. -/
def scaled (num den : Nat) (e : Int) : Nat × Nat :=
  if 0 ≤ e then (num * Nat.pow 2 e.toNat, den) else (num, den * Nat.pow 2 (-e).toNat)

/-- Exponent of the greatest power of two that is at most `num / den`. -/
def binaryOrder (num den : Nat) : Int :=
  let guess := (Nat.log2 num : Int) - (Nat.log2 den : Int)
  let (n, d) := scaled num den (-guess)
  if n < d then guess - 1 else guess

/-- Magnitude pattern nearest to `num / den`, with ties to even and infinity past
the greatest finite value. Because consecutive patterns are consecutive
magnitudes, a significand that rounds up to the next power of two needs no case
of its own. -/
def round (f : BinaryFormat) (num den : Nat) : Nat :=
  if num = 0 then 0
  else
    let quantum := max (binaryOrder num den - f.fractionBits) f.leastQuantum
    let (n, d) := scaled num den (-quantum)
    let pattern := (quantum - f.leastQuantum).toNat * Nat.pow 2 f.fractionBits + roundQuotient n d
    min pattern f.infinity

/-- Significand and quantum exponent of a finite magnitude pattern: the pattern
stands for `significand * 2 ^ quantum`. -/
def unpack (f : BinaryFormat) (pattern : Nat) : Nat × Int :=
  let exponent := pattern / Nat.pow 2 f.fractionBits
  let fraction := pattern % Nat.pow 2 f.fractionBits
  if exponent = 0 then (fraction, f.leastQuantum)
  else (Nat.pow 2 f.fractionBits + fraction, f.leastQuantum + (exponent - 1 : Nat))

end BinaryFormat

end Accessibility
