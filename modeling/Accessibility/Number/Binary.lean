import Accessibility.Number.Rounding

/-! The two kinds of number a run handles, as the bit patterns they are stored
and sent as: `Double` for coordinates, attributes and utilities, `Single` for the
cells of tables and caches. Equality is equality of patterns, so a value read
back is the same value exactly, payloads of NaN included. The four operations and
the conversions between the kinds are rounded here from exact whole-number ratios. -/
namespace Accessibility

/-- A binary64 number, by its pattern. -/
structure Double where
  bits : UInt64
  deriving DecidableEq, Repr, Inhabited

/-- A binary32 number, by its pattern. -/
structure Single where
  bits : UInt32
  deriving DecidableEq, Repr, Inhabited

namespace Double

def toFloat (x : Double) : Float := Float.ofBits x.bits

def ofFloat (x : Float) : Double := ⟨x.toBits⟩

/-- The pattern without its sign bit. -/
def magnitude (x : Double) : Nat := x.bits.toNat % 0x8000000000000000

/-- Whether the sign bit is set, also on zeros and on NaN. -/
def signed (x : Double) : Bool := 0x8000000000000000 ≤ x.bits.toNat

def ofMagnitude (signed : Bool) (pattern : Nat) : Double :=
  ⟨(if signed then 0x8000000000000000 + pattern else pattern).toUInt64⟩

def isNaN (x : Double) : Bool := BinaryFormat.double.infinity < x.magnitude

def isFinite (x : Double) : Bool := x.magnitude < BinaryFormat.double.infinity

def isZero (x : Double) : Bool := x.magnitude = 0

/-- Place on the line of numbers: magnitudes to the right of the two zeros, which
share a place, and negated magnitudes to their left. It orders all but NaN. -/
def rank (x : Double) : Int := if x.signed then -(x.magnitude : Int) else x.magnitude

/-- Strictly less; NaN is less than nothing and nothing is less than NaN. -/
def less (x y : Double) : Bool := !x.isNaN && !y.isNaN && x.rank < y.rank

/-- Less or equal as numbers; NaN compares with nothing. -/
def atMost (x y : Double) : Bool := !x.isNaN && !y.isNaN && x.rank ≤ y.rank

/-- Greater than zero; infinity is, a zero of either sign and NaN are not. -/
def isPositive (x : Double) : Bool := !x.isNaN && 0 < x.rank

/-- Less than zero; a zero of either sign and NaN are not. -/
def isNegative (x : Double) : Bool := !x.isNaN && x.rank < 0

def zero : Double := ⟨0⟩

def one : Double := ⟨0x3FF0000000000000⟩

/-- The sign bit flipped, on every pattern. -/
def neg (x : Double) : Double := ⟨x.bits ^^^ 0x8000000000000000⟩

instance : Neg Double := ⟨neg⟩

/-- A NaN as an operation hands it on. -/
def quiet (x : Double) : Double := ⟨x.bits ||| 0x8000000000000⟩

/-- The outcome of an operation that has none, such as zero times infinity. -/
def invalid : Double := ⟨0xFFF8000000000000⟩

def infinite (signed : Bool) : Double := ofMagnitude signed BinaryFormat.double.infinity

/-- Significand and quantum exponent of a finite number without its sign. -/
def unpack (x : Double) : Nat × Int := BinaryFormat.double.unpack x.magnitude

/-- The number nearest to `num / den * 2 ^ e`, with the given sign. -/
def nearest (signed : Bool) (num den : Nat) (e : Int) : Double :=
  let (num, den) := BinaryFormat.scaled num den e
  ofMagnitude signed (BinaryFormat.double.round num den)

/-- The sum of finite numbers. A zero leaves every other number as it is, and the sum of
two zeros is negative only if both are. -/
def addFinite (x y : Double) : Double :=
  if y.isZero then if x.isZero then ofMagnitude (x.signed && y.signed) 0 else x
  else if x.isZero then y
  else
    let (m, p) := x.unpack
    let (n, q) := y.unpack
    let quantum := min p q
    let left := m * Nat.pow 2 (p - quantum).toNat
    let right := n * Nat.pow 2 (q - quantum).toNat
    if x.signed = y.signed then nearest x.signed (left + right) 1 quantum
    else if left = right then zero
    else if left < right then nearest y.signed (right - left) 1 quantum
    else nearest x.signed (left - right) 1 quantum

def add (x y : Double) : Double :=
  if x.isNaN then x.quiet
  else if y.isNaN then y.quiet
  else if !x.isFinite then if y.isFinite || x.signed = y.signed then x else invalid
  else if !y.isFinite then y
  else addFinite x y

/-- A NaN that is taken away keeps its sign. -/
def sub (x y : Double) : Double :=
  if x.isNaN then x.quiet
  else if y.isNaN then y.quiet
  else add x (neg y)

def mul (x y : Double) : Double :=
  let signed := x.signed != y.signed
  if x.isNaN then x.quiet
  else if y.isNaN then y.quiet
  else if !x.isFinite || !y.isFinite then if x.isZero || y.isZero then invalid else infinite signed
  else
    let (m, p) := x.unpack
    let (n, q) := y.unpack
    nearest signed (m * n) 1 (p + q)

def div (x y : Double) : Double :=
  let signed := x.signed != y.signed
  if x.isNaN then x.quiet
  else if y.isNaN then y.quiet
  else if !x.isFinite then if y.isFinite then infinite signed else invalid
  else if !y.isFinite then ofMagnitude signed 0
  else if y.isZero then if x.isZero then invalid else infinite signed
  else
    let (m, p) := x.unpack
    let (n, q) := y.unpack
    nearest signed m n (p - q)

instance : Add Double := ⟨add⟩
instance : Sub Double := ⟨sub⟩
instance : Mul Double := ⟨mul⟩
instance : Div Double := ⟨div⟩

/-- The number nearest to a whole number. -/
def ofInt (n : Int) : Double :=
  ofMagnitude (n < 0) (BinaryFormat.double.round n.natAbs 1)

/-- The nearest single, ties to even; magnitudes past the greatest single become
infinite. A NaN keeps its sign and the upper bits of its payload. -/
def toSingle (x : Double) : Single :=
  let pattern :=
    if x.isNaN then
      BinaryFormat.single.infinity ||| 0x400000 ||| (x.magnitude % Nat.pow 2 52) / Nat.pow 2 29
    else if x.isFinite then
      let (m, q) := BinaryFormat.double.unpack x.magnitude
      let (num, den) := BinaryFormat.scaled m 1 q
      BinaryFormat.single.round num den
    else BinaryFormat.single.infinity
  ⟨(if x.signed then 0x80000000 + pattern else pattern).toUInt32⟩

end Double

namespace Single

/-- The pattern without its sign bit. -/
def magnitude (x : Single) : Nat := x.bits.toNat % 0x80000000

/-- Whether the sign bit is set, also on zeros and on NaN. -/
def signed (x : Single) : Bool := 0x80000000 ≤ x.bits.toNat

def ofMagnitude (signed : Bool) (pattern : Nat) : Single :=
  ⟨(if signed then 0x80000000 + pattern else pattern).toUInt32⟩

def isNaN (x : Single) : Bool := BinaryFormat.single.infinity < x.magnitude

def isFinite (x : Single) : Bool := x.magnitude < BinaryFormat.single.infinity

def isZero (x : Single) : Bool := x.magnitude = 0

def zero : Single := ⟨0⟩

/-- Equality of numbers: the two zeros are equal, and NaN equals nothing. -/
def sameNumber (x y : Single) : Bool :=
  !x.isNaN && !y.isNaN && (x.bits = y.bits || (x.isZero && y.isZero))

/-- The same number as a double; every single is one. -/
def toDouble (x : Single) : Double :=
  let pattern :=
    if x.isNaN then
      let payload := (x.magnitude % Nat.pow 2 23) * Nat.pow 2 29
      BinaryFormat.double.infinity ||| 0x8000000000000 ||| payload
    else if x.isFinite then
      let (m, q) := BinaryFormat.single.unpack x.magnitude
      let (num, den) := BinaryFormat.scaled m 1 q
      BinaryFormat.double.round num den
    else BinaryFormat.double.infinity
  Double.ofMagnitude x.signed pattern

end Single

/-- Sum in order. It starts from the negative zero, the one number that leaves every
other as it is, so an empty sum is that zero. -/
def Double.sum (xs : List Double) : Double := xs.foldl (· + ·) (-.zero)

end Accessibility
