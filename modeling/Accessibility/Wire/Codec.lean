import Accessibility.Number.Binary

/-! The byte form of values sent between nodes. Words are little-endian and of fixed
width, texts and lists carry their length in front as a 64-bit word, and a choice is
written as its number. Reading takes a value off the front of the bytes and is
strict: a short input, a number that is no choice, and a text that is no valid text
are refused. -/
namespace Accessibility

/-- Values with a byte form. Each type's reader takes exactly what its writer wrote
off the front, whatever follows. -/
class Wire (α : Type) where
  encode : α → List UInt8
  decode : List UInt8 → Option (α × List UInt8)

namespace Wire

/-- The lowest `width` bytes of a number, lowest first. -/
def littleEndian : Nat → Nat → List UInt8
  | 0, _ => []
  | width + 1, n => (n % 256).toUInt8 :: littleEndian width (n / 256)

/-- The number in the first `width` bytes, lowest first. -/
def readLittleEndian : Nat → List UInt8 → Option (Nat × List UInt8)
  | 0, bytes => some (0, bytes)
  | _ + 1, [] => none
  | width + 1, b :: rest =>
    (readLittleEndian width rest).map fun (n, rest) => (b.toNat + 256 * n, rest)

instance : Wire UInt32 where
  encode n := littleEndian 4 n.toNat
  decode bytes := (readLittleEndian 4 bytes).map fun (n, rest) => (n.toUInt32, rest)

instance : Wire UInt64 where
  encode n := littleEndian 8 n.toNat
  decode bytes := (readLittleEndian 8 bytes).map fun (n, rest) => (n.toUInt64, rest)

instance : Wire Double where
  encode x := Wire.encode x.bits
  decode bytes := (Wire.decode bytes).map fun (bits, rest) => (⟨bits⟩, rest)

instance : Wire Single where
  encode x := Wire.encode x.bits
  decode bytes := (Wire.decode bytes).map fun (bits, rest) => (⟨bits⟩, rest)

instance : Wire Bool where
  encode b := [if b then 1 else 0]
  decode
    | 0 :: rest => some (false, rest)
    | 1 :: rest => some (true, rest)
    | _ => none

/-- One value behind the other. -/
instance {α β : Type} [Wire α] [Wire β] : Wire (α × β) where
  encode pair := Wire.encode pair.1 ++ Wire.encode pair.2
  decode bytes := do
    let (a, rest) ← Wire.decode bytes
    let (b, rest) ← Wire.decode rest
    return ((a, b), rest)

/-- Records, which are written as their fields one behind the other. -/
class Record (α : Type) (β : outParam Type) where
  fields : α → β
  ofFields : β → α
  ofFields_fields : ∀ a, ofFields (fields a) = a := by intro; rfl
  fields_ofFields : ∀ b, fields (ofFields b) = b := by intro; rfl

instance {α β : Type} [Record α β] [Wire β] : Wire α where
  encode a := Wire.encode (Record.fields a)
  decode bytes := (Wire.decode bytes).map fun (b, rest) => (Record.ofFields b, rest)

instance {α : Type} [Wire α] : Wire (Option α) where
  encode
    | none => [0]
    | some a => 1 :: Wire.encode a
  decode
    | 0 :: rest => some (none, rest)
    | 1 :: rest => (Wire.decode rest).map fun (a, rest) => (some a, rest)
    | _ => none

/-- Reads a number of values, one after the other. -/
def decodeMany {α : Type} [Wire α] : Nat → List UInt8 → Option (List α × List UInt8)
  | 0, bytes => some ([], bytes)
  | count + 1, bytes => do
    let (a, rest) ← Wire.decode bytes
    let (others, rest) ← decodeMany count rest
    return (a :: others, rest)

/-- A length, as the word in front of what it counts. -/
def encodeLength (n : Nat) : List UInt8 := Wire.encode n.toUInt64

/-- The length in front. -/
def decodeLength (bytes : List UInt8) : Option (Nat × List UInt8) :=
  (Wire.decode (α := UInt64) bytes).map fun (n, rest) => (n.toNat, rest)

instance {α : Type} [Wire α] : Wire (List α) where
  encode items := encodeLength items.length ++ items.flatMap Wire.encode
  decode bytes := do
    let (count, rest) ← decodeLength bytes
    decodeMany count rest

instance {α : Type} [Wire α] : Wire (Array α) where
  encode items := Wire.encode items.toList
  decode bytes := (Wire.decode bytes).map fun (items, rest) => (List.toArray items, rest)

instance : Wire String where
  encode s := encodeLength s.toUTF8.size ++ s.toUTF8.data.toList
  decode bytes := do
    let (size, rest) ← decodeLength bytes
    if rest.length < size then none
    else
      let text ← String.fromUTF8? ⟨(rest.take size).toArray⟩
      return (text, rest.drop size)

end Wire

end Accessibility
