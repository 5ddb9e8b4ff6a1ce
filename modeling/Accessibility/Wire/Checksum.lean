/-! The 64-bit cyclic checksum of frames: the remainder by the polynomial
`x^64 + x^4 + x^3 + x + 1`, lowest bit first, started from all ones and complemented
at the end. Bytes are fed bit by bit, so one step is a shift and at most one
exclusive or. -/
namespace Accessibility.Checksum

/-- The polynomial's lower coefficients, lowest power in the highest bit. -/
def polynomial : UInt64 := 0xD800000000000000

/-- The register after one bit has been shifted out. -/
def shiftBit (register : UInt64) : UInt64 :=
  if register &&& 1 = 1 then (register >>> 1) ^^^ polynomial else register >>> 1

/-- The register after some bits. -/
def shiftBits : Nat → UInt64 → UInt64
  | 0, register => register
  | n + 1, register => shiftBits n (shiftBit register)

/-- The register after one byte. -/
def feed (register : UInt64) (byte : UInt8) : UInt64 :=
  shiftBits 8 (register ^^^ byte.toUInt64)

/-- The checksum of a sequence of bytes. -/
def of (bytes : List UInt8) : UInt64 :=
  bytes.foldl feed 0xFFFFFFFFFFFFFFFF ^^^ 0xFFFFFFFFFFFFFFFF

end Accessibility.Checksum
