import Accessibility.Number.Binary

/-! The elementary functions behind an accessibility: the exponential of an impedance,
the logarithm of one plus a sum, and the length of a distance. They go through the
machine's numbers. The last two are fixed sequences of the four operations and the square
root, each of them rounded once, so their results are the same on every machine; both stay
within one unit in the last place of the true value, and neither loses digits, overflows or
vanishes on the way. -/
namespace Accessibility.Double

/-- The exponential. A NaN stays the NaN it is, a zero gives one exactly, and from -746
down the nearest number is zero. -/
def exp (x : Double) : Double :=
  if x.isNaN then x
  else if x.isZero then one
  else if x.atMost ⟨0xC087500000000000⟩ then zero
  else ofFloat (Float.exp x.toFloat)

/-! ## The logarithm of one plus a number

With `1 + x = 2 ^ k * (1 + f)` and `1 + f` between the root of one half and the root
of two, the logarithm is `k * ln 2 + ln (1 + f)`. -/

/-- The upper bits of `ln 2`, few enough for every multiple by an exponent to be
exact. -/
def lnTwoUpper : Float := .ofBits 0x3FE62E42FEE00000

/-- What is left of `ln 2`. -/
def lnTwoLower : Float := .ofBits 0x3DEA39EF35793C76

/-- With `s = f / (2 + f)`, what `ln (1 + f)` exceeds `2 * s` by is `s` times this
polynomial in `z = s * s`, which has no constant term. -/
def logSeries (z : Float) : Float :=
  let z2 := z * z
  let z4 := z2 * z2
  let z6 := z4 * z2
  let r1 := z * .ofBits 0x3FE5555555555593
  let r2 := .ofBits 0x3FD999999997FA04 + z * .ofBits 0x3FD2492494229359
  let r3 := .ofBits 0x3FCC71C51D8E78AF + z * .ofBits 0x3FC7466496CB03DE
  let r4 := .ofBits 0x3FC39A09D078C69F + z * .ofBits 0x3FC2F112DF3E5244
  r1 + z2 * r2 + z4 * r3 + z6 * r4

/-- A number as `2 ^ exponent * (1 + excess)`. -/
structure LogParts where
  exponent : Int
  excess : Float
  /-- What rounding `1 + x` took off, as a part of it. -/
  lost : Float
  /-- Whether the excess is so small that the first terms of the logarithm do. -/
  near : Bool

/-- The logarithm that the parts stand for. Without an exponent nothing was lost. -/
def LogParts.log (parts : LogParts) : Float :=
  let k := Float.ofInt parts.exponent
  let f := parts.excess
  let half := 0.5 * f * f
  let lower := k * lnTwoLower + parts.lost
  if parts.near then
    if f == 0.0 then
      if parts.exponent = 0 then 0.0 else k * lnTwoUpper + lower
    else
      let r := half * (1.0 - .ofBits 0x3FE5555555555555 * f)
      if parts.exponent = 0 then f - r else k * lnTwoUpper - ((r - lower) - f)
  else
    let s := f / (2.0 + f)
    let r := logSeries (s * s)
    if parts.exponent = 0 then f - (half - s * (half + r))
    else k * lnTwoUpper - ((half - (s * (half + r) + lower)) - f)

/-- The upper half of a pattern without its sign, which orders magnitudes. -/
def upperHalf (x : Double) : Nat := x.magnitude / 0x100000000

/-- The parts of `1 + x`. Past `2 ^ 53` the one makes no difference. -/
def logParts (x : Double) : LogParts :=
  let v := x.toFloat
  let small := x.upperHalf < 0x43400000
  let u := if small then 1.0 + v else v
  let pattern := (ofFloat u).magnitude
  let k : Int := (pattern / 0x10000000000000 : Nat) - 1023
  let lost :=
    if !small then 0.0
    else (if 0 < k then 1.0 - (u - v) else v - (u - 1.0)) / u
  let fraction := pattern % 0x10000000000000
  let upper := fraction / 0x100000000
  if upper < 0x6A09E then
    { exponent := k
      excess := (ofMagnitude false (0x3FF0000000000000 + fraction)).toFloat - 1.0
      lost
      near := upper = 0 }
  else
    { exponent := k + 1
      excess := (ofMagnitude false (0x3FE0000000000000 + fraction)).toFloat - 1.0
      lost
      near := (0x100000 - upper) / 4 = 0 }

/-- Whether `1 + x` needs no exponent: `x` lies between the root of one half and the
root of two, both less one. -/
def isNearOne (x : Double) : Bool :=
  if x.signed then x.upperHalf ≤ 0x3FD2BEC3 else x.upperHalf < 0x3FDA827A

/-- `ln (1 + x)`. Up to `2 ^ -54` it is `x` itself, up to `2 ^ -29` two terms of its
series do; there is none below minus one. -/
def logOnePlus (x : Double) : Double :=
  let v := x.toFloat
  if x.isNaN then x
  else if x.signed && 0x3FF00000 ≤ x.upperHalf then
    if v == -1.0 then ⟨0xFFF0000000000000⟩ else ⟨0x7FF8000000000000⟩
  else if !x.isFinite then x
  else if x.upperHalf < 0x3C900000 then x
  else if x.upperHalf < 0x3E200000 then ofFloat (v - v * v * 0.5)
  else if x.isNearOne then
    ofFloat ({ exponent := 0, excess := v, lost := 0.0, near := false } : LogParts).log
  else ofFloat x.logParts.log

/-! ## The length of a vector -/

/-- The length of a vector with sides `0 ≤ b ≤ a` whose squares neither overflow nor
vanish: the root of the rounded sum of squares, less what its square is too large by,
over twice the root. -/
def correctedRoot (a b : Float) : Float :=
  let h := (a * a + b * b).sqrt
  let excess :=
    if h ≤ 2.0 * b then
      let d := h - b
      a * (2.0 * d - a) + (d - 2.0 * (a - b)) * d
    else
      let d := h - a
      2.0 * d * (a - 2.0 * b) + ((4.0 * d - b) * b + d * d)
  h - excess / (2.0 * h)

/-- `2 ^ -54`: a side that is shorter than the other by this factor adds at most half
a unit to it. -/
def negligible : Float := .ofBits 0x3C90000000000000

/-- `2 ^ -600`, the factor that very long and very short sides are scaled by. -/
def lengthScale : Float := .ofBits 0x1A70000000000000

/-- The length of a vector with finite sides `0 ≤ b ≤ a`. -/
def lengthOf (a b : Float) : Float :=
  if .ofBits 0x5FE0000000000000 < a then
    if b ≤ a * negligible then a + b
    else correctedRoot (a * lengthScale) (b * lengthScale) / lengthScale
  else if b < .ofBits 0x2340000000000000 then
    if b / negligible ≤ a then a + b
    else correctedRoot (a / lengthScale) (b / lengthScale) * lengthScale
  else if b ≤ a * negligible then a + b
  else correctedRoot a b

/-- The length of the vector `(x, y)`. An infinite side gives an infinite length
whatever the other is, and without one side the vector is as long as the other. -/
def hypot (x y : Double) : Double :=
  let infinite (v : Double) : Bool := v.magnitude = BinaryFormat.double.infinity
  if infinite x || infinite y then ofMagnitude false BinaryFormat.double.infinity
  else if x.isNaN then x
  else if y.isNaN then y
  else if x.isZero then ofMagnitude false y.magnitude
  else if y.isZero then ofMagnitude false x.magnitude
  else
    let longer := ofMagnitude false (max x.magnitude y.magnitude)
    let shorter := ofMagnitude false (min x.magnitude y.magnitude)
    ofFloat (lengthOf longer.toFloat shorter.toFloat)

end Accessibility.Double
