import Mathlib.Algebra.Ring.Nat
import Accessibility.Wire.Message

/-! Round trip of the byte form: a reader takes exactly what the writer wrote off the
front, whatever follows. Lengths stand in front as 64-bit words, so this is said of
values whose byte form is shorter than that; every value a message can hold is. -/
namespace Accessibility.Wire

/-- Types whose reader takes back what their writer wrote. -/
class Lawful (α : Type) [Wire α] : Prop where
  /-- No value is written as nothing, so there are no more values than bytes. -/
  encode_pos : ∀ a : α, 0 < (Wire.encode a).length
  decode_encode : ∀ (a : α) (rest : List UInt8), (Wire.encode a).length < UInt64.size →
    Wire.decode (Wire.encode a ++ rest) = some (a, rest)

/-- A value that fits into a frame, with the other fields of its message beside it. A
frame states its length as a 64-bit word, which is more than memory can hold. -/
def Sendable {α : Type} [Wire α] (a : α) : Prop := (Wire.encode a).length + 32 < UInt64.size

@[simp] theorem length_littleEndian (width n : Nat) : (littleEndian width n).length = width := by
  induction width generalizing n with
  | zero => rfl
  | succ width ih => simp [littleEndian, ih]

@[simp] theorem length_encode_uint32 (n : UInt32) : (Wire.encode n).length = 4 :=
  length_littleEndian 4 _

@[simp] theorem length_encode_uint64 (n : UInt64) : (Wire.encode n).length = 8 :=
  length_littleEndian 8 _

/-- The lowest byte of a number, and those above it. -/
theorem mod_pow_succ (n width : Nat) : n % 256 ^ (width + 1) = n % 256 + 256 * (n / 256 % 256 ^ width) := by
  rw [Nat.pow_succ, Nat.mul_comm, Nat.mod_mul]

theorem readLittleEndian_littleEndian (width n : Nat) (rest : List UInt8) :
    readLittleEndian width (littleEndian width n ++ rest) = some (n % 256 ^ width, rest) := by
  induction width generalizing n with
  | zero => simp [readLittleEndian, littleEndian, Nat.mod_one]
  | succ width ih =>
    have low : (n % 256).toUInt8.toNat = n % 256 := by
      simp
    simp [readLittleEndian, littleEndian, ih, low, mod_pow_succ]

instance : Lawful UInt32 where
  encode_pos n := by simp [Wire.encode]
  decode_encode n rest _ := by
    simp [Wire.encode, Wire.decode, readLittleEndian_littleEndian]

instance : Lawful UInt64 where
  encode_pos n := by simp [Wire.encode]
  decode_encode n rest _ := by
    simp [Wire.encode, Wire.decode, readLittleEndian_littleEndian]

instance : Lawful Double where
  encode_pos x := Lawful.encode_pos x.bits
  decode_encode x rest small := by
    show (Wire.decode (Wire.encode x.bits ++ rest)).map _ = _
    rw [Lawful.decode_encode x.bits rest small]
    rfl

instance : Lawful Single where
  encode_pos x := Lawful.encode_pos x.bits
  decode_encode x rest small := by
    show (Wire.decode (Wire.encode x.bits ++ rest)).map _ = _
    rw [Lawful.decode_encode x.bits rest small]
    rfl

instance : Lawful Bool where
  encode_pos b := by simp [Wire.encode]
  decode_encode b rest _ := by cases b <;> rfl

section Composite

variable {α β : Type} [Wire α] [Wire β] [Lawful α] [Lawful β]

instance : Lawful (α × β) where
  encode_pos pair := by
    have := Lawful.encode_pos pair.1
    simp only [Wire.encode, List.length_append]
    omega
  decode_encode pair rest small := by
    simp only [Wire.encode, List.length_append] at small
    simp only [Wire.encode, Wire.decode, List.append_assoc, bind, Option.bind, pure]
    rw [Lawful.decode_encode pair.1 _ (by omega)]
    simp only
    rw [Lawful.decode_encode pair.2 _ (by omega)]

instance : Lawful (Option α) where
  encode_pos value := by cases value <;> simp [Wire.encode]
  decode_encode value rest small := by
    cases value with
    | none => rfl
    | some a =>
      have inner : (Wire.encode a).length < UInt64.size := by
        simp only [Wire.encode, List.length_cons] at small
        omega
      show (Wire.decode (Wire.encode a ++ rest)).map _ = _
      rw [Lawful.decode_encode a rest inner]
      rfl

theorem decodeLength_encodeLength {n : Nat} (small : n < UInt64.size) (rest : List UInt8) :
    decodeLength (encodeLength n ++ rest) = some (n, rest) := by
  have bound : n.toUInt64.toNat = n := UInt64.toNat_ofNat_of_lt' small
  simp only [decodeLength, encodeLength]
  rw [Lawful.decode_encode n.toUInt64 rest (by simp [Wire.encode, UInt64.size]),
    Option.map_some, bound]

theorem decodeMany_encode (items : List α) (rest : List UInt8)
    (small : (items.flatMap Wire.encode).length < UInt64.size) :
    decodeMany items.length (items.flatMap Wire.encode ++ rest) = some (items, rest) := by
  induction items with
  | nil => rfl
  | cons a items ih =>
    simp only [List.flatMap_cons, List.length_append] at small
    simp only [List.length_cons, List.flatMap_cons, List.append_assoc, decodeMany]
    rw [Lawful.decode_encode a _ (by omega)]
    simp only [Option.bind_eq_bind, Option.bind_some]
    rw [ih (by omega)]
    rfl

/-- A list has no more items than its byte form has bytes. -/
theorem length_le_length_flatMap (items : List α) :
    items.length ≤ (items.flatMap (Wire.encode (α := α))).length := by
  induction items with
  | nil => simp
  | cons a items ih =>
    have := Lawful.encode_pos a
    simp only [List.flatMap_cons, List.length_cons, List.length_append]
    omega

@[simp] theorem length_encodeLength (n : Nat) : (encodeLength n).length = 8 :=
  length_littleEndian 8 _

instance : Lawful (List α) where
  encode_pos items := by
    simp only [Wire.encode, List.length_append, length_encodeLength]
    omega
  decode_encode items rest small := by
    simp only [Wire.encode, List.length_append, length_encodeLength] at small
    have count := length_le_length_flatMap items
    show (do
      let (count, rest) ← decodeLength (_ ++ _ ++ rest)
      decodeMany count rest) = _
    rw [List.append_assoc, decodeLength_encodeLength (by omega)]
    exact decodeMany_encode items rest (by omega)

instance : Lawful (Array α) where
  encode_pos items := Lawful.encode_pos items.toList
  decode_encode items rest small := by
    show (Wire.decode (Wire.encode items.toList ++ rest)).map _ = _
    rw [Lawful.decode_encode items.toList rest small]
    simp

end Composite

instance : Lawful String where
  encode_pos s := by
    simp only [Wire.encode, List.length_append, length_encodeLength]
    omega
  decode_encode s rest small := by
    simp only [Wire.encode, List.length_append, length_encodeLength] at small
    have size : s.toUTF8.data.toList.length = s.toUTF8.size := Array.length_toList
    have text : String.fromUTF8? s.toUTF8 = some s := by
      simp [String.fromUTF8?, String.fromUTF8, s.isValidUTF8]
    have whole : (⟨(s.toUTF8.data.toList).toArray⟩ : ByteArray) = s.toUTF8 := rfl
    have enough : ¬ (s.toUTF8.data.toList ++ rest).length < s.toUTF8.size := by
      rw [List.length_append, size]
      omega
    show (do
      let (size, rest) ← decodeLength (_ ++ _ ++ rest)
      if rest.length < size then none
      else
        let text ← String.fromUTF8? ⟨(rest.take size).toArray⟩
        return (text, rest.drop size)) = _
    rw [List.append_assoc, decodeLength_encodeLength (by omega)]
    simp only [Option.bind_eq_bind, Option.bind_some, if_neg enough]
    rw [← size, List.take_left, List.drop_left, whole, text]
    rfl

instance {α β : Type} [Record α β] [Wire β] [Lawful β] : Lawful α where
  encode_pos a := Lawful.encode_pos (Record.fields a)
  decode_encode a rest small := by
    show (Wire.decode (Wire.encode (Record.fields a) ++ rest)).map _ = _
    rw [Lawful.decode_encode (Record.fields a) rest small]
    simp [Record.ofFields_fields]

instance : Lawful TaskOutcome where
  encode_pos outcome := by
    cases outcome <;> simp only [Wire.encode, List.length_append, length_littleEndian] <;> omega
  decode_encode outcome rest small := by
    cases outcome with
    | completed result =>
      have inner : (Wire.encode result).length < UInt64.size := by
        have shape : (Wire.encode (TaskOutcome.completed result)).length =
          (Wire.encode (0 : UInt32)).length + (Wire.encode result).length := List.length_append
        omega
      show (do
        let (choice, rest) ← Wire.decode (α := UInt32) (_ ++ _ ++ rest)
        if choice = 0 then _ else _) = _
      rw [List.append_assoc, Lawful.decode_encode (0 : UInt32) _ (by decide)]
      simp only [Option.bind_eq_bind, Option.bind_some, ↓reduceIte]
      rw [Lawful.decode_encode result rest inner]
      rfl
    | failed zone text =>
      have inner : (Wire.encode (zone, text)).length < UInt64.size := by
        have shape : (Wire.encode (TaskOutcome.failed zone text)).length =
          (Wire.encode (1 : UInt32)).length + (Wire.encode (zone, text)).length := List.length_append
        omega
      show (do
        let (choice, rest) ← Wire.decode (α := UInt32) (_ ++ _ ++ rest)
        if choice = 0 then _ else if choice = 1 then _ else _) = _
      rw [List.append_assoc, Lawful.decode_encode (1 : UInt32) _ (by decide)]
      have other : ¬ (1 : UInt32) = 0 := by decide
      simp only [Option.bind_eq_bind, Option.bind_some, ↓reduceIte, if_neg other]
      rw [Lawful.decode_encode (zone, text) rest inner]
      rfl

theorem length_flatMap_encode_single (values : List Single) :
    (values.flatMap Wire.encode).length = 4 * values.length := by
  induction values with
  | nil => rfl
  | cons value rest ih =>
    have word : (Wire.encode value).length = 4 := length_encode_uint32 value.bits
    rw [List.flatMap_cons, List.length_append, word, ih, List.length_cons]
    omega

/-- A completed outcome takes four bytes for each of its values. -/
theorem length_encode_completed (result : PacketResult) :
    (Wire.encode (TaskOutcome.completed result)).length = 40 + 4 * result.values.size := by
  have fields : Wire.encode (TaskOutcome.completed result) = Wire.encode (0 : UInt32) ++
    (Wire.encode result.packetId ++ (Wire.encode result.first ++ (Wire.encode result.last ++
      (Wire.encode result.alternatives ++ (encodeLength result.values.toList.length ++
        result.values.toList.flatMap Wire.encode))))) := rfl
  rw [fields]
  simp only [List.length_append, length_encode_uint32, length_encode_uint64, length_encodeLength,
    length_flatMap_encode_single, Array.length_toList]
  omega

end Accessibility.Wire
