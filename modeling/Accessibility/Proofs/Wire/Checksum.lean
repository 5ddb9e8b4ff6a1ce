import Mathlib.Data.Nat.Bitwise
import Accessibility.Wire.Checksum

/-! Changes that a checksum is sure to show. Shifting a bit out of the register is linear in
exclusive or, and loses nothing: the bit shows at the top. So registers that differ go on to
differ over the same bytes. Eight bytes fill the register and no more, which is why any change
within eight bytes in a row makes it differ (`of_ne_of_window`). -/
namespace Accessibility.Checksum

variable {n : Nat} {register a b : UInt64}

theorem eq_of_testBit (same : ∀ i, a.toNat.testBit i = b.toNat.testBit i) : a = b :=
  UInt64.toNat_inj.mp (Nat.eq_of_testBit_eq same)

theorem testBit_of_large (register : UInt64) {i : Nat} (large : 64 ≤ i) :
    register.toNat.testBit i = false :=
  Nat.testBit_lt_two_pow (Nat.lt_of_lt_of_le register.toNat_lt (Nat.pow_le_pow_right (by decide) large))

theorem testBit_byte (byte : UInt8) {i : Nat} (large : 8 ≤ i) : byte.toUInt64.toNat.testBit i = false := by
  rw [UInt8.toNat_toUInt64]
  exact Nat.testBit_lt_two_pow
    (Nat.lt_of_lt_of_le byte.toNat_lt (Nat.pow_le_pow_right (by decide) large))

/-- A bit of the register after one has been shifted out. -/
theorem testBit_shiftBit (register : UInt64) (i : Nat) :
    (shiftBit register).toNat.testBit i =
      (register.toNat.testBit (i + 1) ^^ (register.toNat.testBit 0 && polynomial.toNat.testBit i)) := by
  have low : register &&& 1 = 1 ↔ register.toNat.testBit 0 = true := by
    rw [← UInt64.toNat_inj, UInt64.toNat_and]
    simp [Nat.testBit_zero, Nat.and_one_is_mod]
  unfold shiftBit
  split
  next odd =>
    rw [UInt64.toNat_xor, Nat.testBit_xor, UInt64.toNat_shiftRight, low.mp odd]
    simp [Nat.testBit_shiftRight, Nat.add_comm]
  next even =>
    rw [UInt64.toNat_shiftRight, Bool.eq_false_iff.mpr (mt low.mpr even)]
    simp [Nat.testBit_shiftRight, Nat.add_comm]

/-- The bit that is shifted out shows at the top. -/
theorem testBit_shiftBit_top (register : UInt64) :
    (shiftBit register).toNat.testBit 63 = register.toNat.testBit 0 := by
  have top : polynomial.toNat.testBit 63 = true := by decide
  rw [testBit_shiftBit, testBit_of_large register (Nat.le_refl 64), top, Bool.and_true, Bool.false_xor]

theorem shiftBit_xor (a b : UInt64) : shiftBit (a ^^^ b) = shiftBit a ^^^ shiftBit b := by
  apply eq_of_testBit
  intro i
  rw [UInt64.toNat_xor, Nat.testBit_xor]
  simp only [testBit_shiftBit, UInt64.toNat_xor, Nat.testBit_xor]
  grind

theorem shiftBits_xor (n : Nat) (a b : UInt64) :
    shiftBits n (a ^^^ b) = shiftBits n a ^^^ shiftBits n b := by
  induction n generalizing a b with
  | zero => rfl
  | succ n ih => rw [shiftBits, shiftBit_xor, ih, shiftBits, shiftBits]

theorem shiftBit_inj (same : shiftBit a = shiftBit b) : a = b := by
  have low : a.toNat.testBit 0 = b.toNat.testBit 0 := by
    rw [← testBit_shiftBit_top, ← testBit_shiftBit_top, same]
  apply eq_of_testBit
  intro i
  cases i with
  | zero => exact low
  | succ i =>
    have next : (shiftBit a).toNat.testBit i = (shiftBit b).toNat.testBit i := by rw [same]
    rwa [testBit_shiftBit, testBit_shiftBit, low, Bool.xor_left_inj] at next

theorem shiftBits_inj (same : shiftBits n a = shiftBits n b) : a = b := by
  induction n generalizing a b with
  | zero => exact same
  | succ n ih => exact shiftBit_inj (ih same)

/-- Zeros are shifted out and leave no trace. -/
theorem testBit_shiftBits (zeros : ∀ i < n, register.toNat.testBit i = false) (i : Nat) :
    (shiftBits n register).toNat.testBit i = register.toNat.testBit (i + n) := by
  induction n generalizing register with
  | zero => rfl
  | succ n ih =>
    have step : ∀ i, (shiftBit register).toNat.testBit i = register.toNat.testBit (i + 1) := by
      intro i
      rw [testBit_shiftBit, zeros 0 (Nat.succ_pos n), Bool.false_and, Bool.xor_false]
    have left : ∀ i < n, (shiftBit register).toNat.testBit i = false := by
      intro i small
      rw [step, zeros (i + 1) (Nat.succ_lt_succ small)]
    rw [shiftBits, ih left, step]
    rfl

/-- If zeros fill the register from above, zeros were shifted out. -/
theorem zeros_of_shiftBits (within : n ≤ 64)
    (clear : ∀ i, 64 - n ≤ i → (shiftBits n register).toNat.testBit i = false) :
    ∀ i < n, register.toNat.testBit i = false := by
  induction n generalizing register with
  | zero => simp
  | succ n ih =>
    have zeros : ∀ i < n, (shiftBit register).toNat.testBit i = false := by
      refine ih (by omega) fun i large => ?_
      exact clear i (by omega)
    have low : register.toNat.testBit 0 = false := by
      have top := clear (63 - n) (by omega)
      rwa [shiftBits, testBit_shiftBits zeros, Nat.sub_add_cancel (by omega), testBit_shiftBit_top] at top
    intro i small
    cases i with
    | zero => exact low
    | succ i =>
      have next := zeros i (by omega)
      rwa [testBit_shiftBit, low, Bool.false_and, Bool.xor_false] at next

theorem feed_inj {byte : UInt8} (same : feed a byte = feed b byte) : a = b :=
  (UInt64.xor_left_inj byte.toUInt64).mp (shiftBits_inj same)

/-- Registers that differ go on to differ over the same bytes. -/
theorem foldl_feed_inj {bytes : List UInt8} (same : bytes.foldl feed a = bytes.foldl feed b) : a = b := by
  induction bytes generalizing a b with
  | nil => exact same
  | cons byte bytes ih => exact feed_inj (ih same)

/-- Registers that come together over up to eight bytes each differ in no more bits than the
bytes have; and if they were equal, so were the bytes. The induction is on the bytes from the
front: what the registers differ in after the first byte was shifted down by eight places. -/
theorem eq_of_foldl_feed_eq {xs ys : List UInt8} (long : xs.length = ys.length) (short : xs.length ≤ 8)
    (same : xs.foldl feed a = ys.foldl feed b) :
    (∀ i, 8 * xs.length ≤ i → (a ^^^ b).toNat.testBit i = false) ∧ (a = b → xs = ys) := by
  induction xs generalizing ys a b with
  | nil =>
    cases List.length_eq_zero_iff.mp long.symm
    cases same
    simp
  | cons x xs ih =>
    cases ys with
    | nil => cases long
    | cons y ys =>
      simp only [List.length_cons, Nat.add_right_cancel_iff] at long short ⊢
      obtain ⟨near, equal⟩ := ih long (by omega) same
      have apart : feed a x ^^^ feed b y = shiftBits 8 ((a ^^^ b) ^^^ (x.toUInt64 ^^^ y.toUInt64)) := by
        rw [feed, feed, ← shiftBits_xor]
        congr 1
        ac_rfl
      rw [apart] at near
      have zeros := zeros_of_shiftBits (by decide) fun i large => near i (by omega)
      constructor
      · intro i large
        obtain ⟨j, rfl⟩ := Nat.exists_eq_add_of_le' (show 8 ≤ i by omega)
        have shifted := near j (by omega)
        rw [testBit_shiftBits zeros, UInt64.toNat_xor, UInt64.toNat_xor x.toUInt64, Nat.testBit_xor,
          Nat.testBit_xor, testBit_byte x (by omega), testBit_byte y (by omega)] at shifted
        simpa using shifted
      · rintro rfl
        have first : x = y := by
          apply UInt8.toNat_inj.mp
          apply Nat.eq_of_testBit_eq
          intro i
          rw [← UInt8.toNat_toUInt64, ← UInt8.toNat_toUInt64]
          by_cases small : i < 8
          · simpa [UInt64.toNat_xor] using zeros i small
          · rw [testBit_byte x (by omega), testBit_byte y (by omega)]
        subst first
        rw [equal rfl]

/-- A change within eight bytes in a row changes the checksum. -/
theorem of_ne_of_window {front xs ys back : List UInt8} (long : xs.length = ys.length)
    (short : xs.length ≤ 8) (different : xs ≠ ys) :
    of (front ++ xs ++ back) ≠ of (front ++ ys ++ back) := by
  intro same
  have registers := (UInt64.xor_left_inj _).mp same
  rw [List.foldl_append, List.foldl_append, List.foldl_append, List.foldl_append] at registers
  exact different ((eq_of_foldl_feed_eq long short (foldl_feed_inj registers)).2 rfl)

end Accessibility.Checksum
