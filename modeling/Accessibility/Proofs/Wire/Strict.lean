import Accessibility.Proofs.Wire.Codec

/-! The byte form is the only one: a reader takes nothing off the front but what the writer of
the value it gives back would have written there. Every number is of fixed width, every choice
has one code, a length counts what follows it, and a valid text has one form in bytes; so this
passes from the parts of a message to the whole. -/
namespace Accessibility.Wire

/-- Types whose reader takes nothing but what their writer wrote. -/
class Strict (α : Type) [Wire α] : Prop where
  eq_encode : ∀ {bytes : List UInt8} {a : α} {rest : List UInt8},
    Wire.decode bytes = some (a, rest) → bytes = Wire.encode a ++ rest

theorem eq_littleEndian_of_read {width n : Nat} {bytes rest : List UInt8}
    (read : readLittleEndian width bytes = some (n, rest)) :
    bytes = littleEndian width n ++ rest ∧ n < 256 ^ width := by
  induction width generalizing bytes n with
  | zero =>
    cases read
    exact ⟨rfl, by decide⟩
  | succ width ih =>
    cases bytes with
    | nil => cases read
    | cons byte bytes =>
      obtain ⟨⟨high, behind⟩, further, same⟩ := Option.map_eq_some_iff.mp read
      cases same
      obtain ⟨rfl, small⟩ := ih further
      have bound := byte.toNat_lt
      have low : (byte.toNat + 256 * high) % 256 = byte.toNat := by omega
      have above : (byte.toNat + 256 * high) / 256 = high := by omega
      constructor
      · rw [littleEndian, low, above]
        simp
      · rw [Nat.pow_succ]
        omega

instance : Strict UInt32 where
  eq_encode read := by
    obtain ⟨⟨n, rest⟩, found, same⟩ := Option.map_eq_some_iff.mp read
    cases same
    obtain ⟨rfl, small⟩ := eq_littleEndian_of_read found
    show _ = littleEndian 4 n.toUInt32.toNat ++ _
    rw [show n.toUInt32.toNat = n from UInt32.toNat_ofNat_of_lt' small]

instance : Strict UInt64 where
  eq_encode read := by
    obtain ⟨⟨n, rest⟩, found, same⟩ := Option.map_eq_some_iff.mp read
    cases same
    obtain ⟨rfl, small⟩ := eq_littleEndian_of_read found
    show _ = littleEndian 8 n.toUInt64.toNat ++ _
    rw [show n.toUInt64.toNat = n from UInt64.toNat_ofNat_of_lt' small]

instance : Strict Bool where
  eq_encode read := by
    simp only [Wire.decode] at read
    split at read <;> cases read <;> rfl

section Composite

variable {α β : Type} [Wire α] [Strict α] {bytes rest : List UInt8}

/-- A value that is made of another one is read as that one is. -/
theorem eq_encode_of_map (make : α → β) {b : β}
    (read : (Wire.decode bytes).map (fun (a, rest) => (make a, rest)) = some (b, rest)) :
    ∃ a, make a = b ∧ bytes = Wire.encode a ++ rest := by
  obtain ⟨⟨a, rest⟩, found, same⟩ := Option.map_eq_some_iff.mp read
  cases same
  exact ⟨a, rfl, Strict.eq_encode found⟩

instance : Strict Double where
  eq_encode read := by
    obtain ⟨bits, rfl, rfl⟩ := eq_encode_of_map Double.mk read
    rfl

instance : Strict Single where
  eq_encode read := by
    obtain ⟨bits, rfl, rfl⟩ := eq_encode_of_map Single.mk read
    rfl

instance [Wire β] [Strict β] : Strict (α × β) where
  eq_encode {bytes pair behind} read := by
    simp only [Wire.decode, Option.bind_eq_bind, Option.bind_eq_some_iff] at read
    obtain ⟨⟨a, middle⟩, first, ⟨b, rest⟩, second, same⟩ := read
    cases same
    calc bytes = Wire.encode a ++ middle := Strict.eq_encode first
      _ = Wire.encode a ++ (Wire.encode b ++ rest) := congrArg (Wire.encode a ++ ·) (Strict.eq_encode second)
      _ = Wire.encode (a, b) ++ rest := (List.append_assoc ..).symm

instance [Record β α] : Strict β where
  eq_encode read := by
    obtain ⟨fields, rfl, rfl⟩ := eq_encode_of_map Record.ofFields read
    show _ = Wire.encode (Record.fields (Record.ofFields fields)) ++ _
    rw [Record.fields_ofFields]

instance : Strict (Option α) where
  eq_encode {bytes value rest} read := by
    simp only [Wire.decode] at read
    split at read
    · cases read
      rfl
    · obtain ⟨value, rfl, rfl⟩ := eq_encode_of_map some read
      rfl
    · cases read

theorem eq_encodeLength_of_decode {n : Nat} (read : decodeLength bytes = some (n, rest)) :
    bytes = encodeLength n ++ rest := by
  obtain ⟨⟨word, rest⟩, found, same⟩ := Option.map_eq_some_iff.mp read
  cases same
  rw [Strict.eq_encode found, encodeLength]
  simp

theorem eq_flatMap_of_decodeMany {count : Nat} {items : List α}
    (read : decodeMany count bytes = some (items, rest)) :
    items.length = count ∧ bytes = items.flatMap Wire.encode ++ rest := by
  induction count generalizing bytes items with
  | zero =>
    cases read
    exact ⟨rfl, rfl⟩
  | succ count ih =>
    simp only [decodeMany, Option.bind_eq_bind, Option.bind_eq_some_iff] at read
    obtain ⟨⟨a, middle⟩, first, ⟨others, rest⟩, second, same⟩ := read
    cases same
    obtain ⟨rfl, rfl⟩ := ih second
    rw [Strict.eq_encode first]
    exact ⟨rfl, by simp⟩

instance : Strict (List α) where
  eq_encode read := by
    simp only [Wire.decode, Option.bind_eq_bind, Option.bind_eq_some_iff] at read
    obtain ⟨⟨count, middle⟩, first, second⟩ := read
    obtain ⟨rfl, rfl⟩ := eq_flatMap_of_decodeMany second
    rw [eq_encodeLength_of_decode first, ← List.append_assoc]
    rfl

instance : Strict (Array α) where
  eq_encode read := by
    obtain ⟨items, rfl, rfl⟩ := eq_encode_of_map List.toArray read
    rfl

end Composite

/-- A text is read from the bytes that are counted, and they are its own. -/
instance : Strict String where
  eq_encode read := by
    simp only [Wire.decode, Option.bind_eq_bind, Option.bind_eq_some_iff] at read
    obtain ⟨⟨size, behind⟩, first, second⟩ := read
    simp only at second
    split at second
    · cases second
    next enough =>
      obtain ⟨text, valid, same⟩ := Option.bind_eq_some_iff.mp second
      cases same
      obtain ⟨utf8, made⟩ := Option.dite_none_right_eq_some.mp valid
      cases made
      rw [eq_encodeLength_of_decode first]
      show _ = encodeLength (behind.take size).toArray.size ++ (behind.take size).toArray.toList ++
        behind.drop size
      rw [List.size_toArray, List.length_take, Nat.min_eq_left (Nat.not_lt.mp enough),
        List.append_assoc, List.take_append_drop]

instance : Strict TaskOutcome where
  eq_encode read := by
    simp only [Wire.decode, Option.bind_eq_bind, Option.bind_eq_some_iff] at read
    obtain ⟨⟨choice, behind⟩, first, second⟩ := read
    rw [Strict.eq_encode (a := choice) first]
    simp only at second
    split at second
    next same =>
      obtain ⟨result, rfl, rfl⟩ := eq_encode_of_map TaskOutcome.completed second
      rw [same]
      rfl
    next =>
      split at second
      next same =>
        obtain ⟨⟨zone, text⟩, rfl, rfl⟩ :=
          eq_encode_of_map (fun (zone, text) => TaskOutcome.failed zone text) second
        rw [same]
        rfl
      next => cases second

end Accessibility.Wire
