import Accessibility.Number.Binary
import Accessibility.Proofs.Number.Rounding

/-! Doubles as singles. A finite double never becomes a NaN, but it need not stay finite:
it does exactly if it lies less than half a step past the greatest single
(`isFinite_toSingle_iff`). -/
namespace Accessibility.Double

open BinaryFormat

/-- How far a finite number lies from zero. -/
def size (x : Double) : ℚ := x.unpack.1 * 2 ^ x.unpack.2

/-- Whether a number is nearer to the greatest single than to the power of two behind it. -/
def Narrow (x : Double) : Prop := x.size < 2 ^ 128 - 2 ^ 103

/-- The pattern of the single nearest to a finite number. -/
def narrowed (x : Double) : Nat :=
  single.round (scaled x.unpack.1 1 x.unpack.2).1 (scaled x.unpack.1 1 x.unpack.2).2

variable {x : Double}

theorem magnitude_toSingle (finite : x.isFinite = true) : x.toSingle.magnitude = x.narrowed := by
  have number : x.isNaN = false := by
    simp only [isFinite, isNaN, decide_eq_true_eq, decide_eq_false_iff_not] at finite ⊢
    omega
  have top : x.narrowed ≤ single.infinity := round_le_infinity ..
  have infinity : single.infinity = 0x7F800000 := by decide +kernel
  have pattern : x.toSingle = ⟨(if x.signed then 0x80000000 + x.narrowed else x.narrowed).toUInt32⟩ := by
    simp only [toSingle, number, finite, Bool.false_eq_true, ↓reduceIte]
    rfl
  rw [infinity] at top
  rw [pattern, Single.magnitude]
  split_ifs <;> simp only [Nat.toUInt32_eq, UInt32.toNat_ofNat'] <;> omega

theorem isNaN_toSingle (finite : x.isFinite = true) : x.toSingle.isNaN = false := by
  rw [Single.isNaN, magnitude_toSingle finite]
  exact decide_eq_false (round_le_infinity ..).not_gt

/-- A finite double stays finite as a single exactly if it is narrow enough. -/
theorem isFinite_toSingle_iff (finite : x.isFinite = true) : x.toSingle.isFinite = true ↔ x.Narrow := by
  have greatest : single.unpack (single.infinity - 1) = (16777215, 104) := by decide +kernel
  have border : single.middle (single.infinity - 1) = 2 ^ 128 - 2 ^ 103 := by
    rw [middle, greatest]
    norm_num
  have size : ((scaled x.unpack.1 1 x.unpack.2).1 / (scaled x.unpack.1 1 x.unpack.2).2 : ℚ) = x.size := by
    rw [← ratio, ratio_scaled, Double.size, Nat.cast_one, div_one]
  have past : single.infinity - 1 < x.narrowed ↔ 2 ^ 128 - 2 ^ 103 < x.size ∨ 2 ^ 128 - 2 ^ 103 = x.size := by
    have overflow : single.infinity - 1 < x.narrowed ↔ _ :=
      lt_round_iff (scaled_pos Nat.one_pos x.unpack.2) (by decide +kernel)
    rw [overflow, border, size, greatest]
    simp
  have infinity : single.infinity = 0x7F800000 := by decide +kernel
  rw [Single.isFinite, magnitude_toSingle finite, decide_eq_true_eq, Narrow, ← not_le, ← not_le,
    le_iff_lt_or_eq (a := (2 ^ 128 - 2 ^ 103 : ℚ)), ← past]
  omega

end Accessibility.Double
