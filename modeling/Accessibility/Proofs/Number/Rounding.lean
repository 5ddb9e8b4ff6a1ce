import Mathlib.Algebra.Order.Field.Power
import Mathlib.Data.Nat.Log
import Mathlib.Data.Rat.Cast.Order
import Mathlib.Tactic.FieldSimp
import Mathlib.Tactic.Linarith
import Mathlib.Tactic.NormNum
import Mathlib.Tactic.Positivity
import Mathlib.Tactic.Ring
import Accessibility.Number.Rounding

/-! Where rounding to a format changes. A finite pattern stands for a significand on a
grid, and the next pattern for the next point of the same grid; a ratio is rounded past
the pattern exactly if it lies behind the middle of the two, or on it while the
significand is odd (`lt_round_iff`). So rounding depends on nothing but the ratio
(`round_congr`), and the ratios that are rounded to a pattern lie between the middle
below and the middle above it (`round_eq_iff`). -/
namespace Accessibility.BinaryFormat

variable {f : BinaryFormat} {num den pattern : Nat}

/-! ## Ratios -/

/-- A pair of whole numbers as a fraction. -/
def ratio (pair : Nat × Nat) : ℚ := pair.1 / pair.2

theorem scaled_pos (positive : 0 < den) (e : Int) : 0 < (scaled num den e).2 := by
  unfold scaled
  split
  · exact positive
  · exact Nat.mul_pos positive (Nat.pow_pos (by decide))

theorem ratio_scaled (num den : Nat) (e : Int) :
    ratio (scaled num den e) = num / den * 2 ^ e := by
  unfold scaled ratio
  split
  next up =>
    obtain ⟨n, rfl⟩ := Int.eq_ofNat_of_zero_le up
    push_cast [Int.toNat_natCast, Nat.pow_eq, zpow_natCast]
    ring
  next down =>
    obtain ⟨n, same⟩ := Int.eq_ofNat_of_zero_le (a := -e) (by omega)
    obtain rfl : e = -(n : Int) := by omega
    push_cast [Int.neg_neg, Int.toNat_natCast, Nat.pow_eq, zpow_neg, zpow_natCast]
    rw [div_mul_eq_div_div, div_eq_mul_inv]

/-- The binary order of a ratio is the exponent of the power of two below it. -/
theorem binaryOrder_spec (some_num : num ≠ 0) (some_den : den ≠ 0) :
    (2 : ℚ) ^ binaryOrder num den ≤ num / den ∧ (num / den : ℚ) < 2 ^ (binaryOrder num den + 1) := by
  have top : (2 : ℚ) ^ (Nat.log2 num : Int) ≤ num ∧ (num : ℚ) < 2 ^ ((Nat.log2 num : Int) + 1) := by
    exact_mod_cast And.intro (Nat.log2_self_le some_num) (Nat.lt_log2_self (n := num))
  have bottom : (2 : ℚ) ^ (Nat.log2 den : Int) ≤ den ∧ (den : ℚ) < 2 ^ ((Nat.log2 den : Int) + 1) := by
    exact_mod_cast And.intro (Nat.log2_self_le some_den) (Nat.lt_log2_self (n := den))
  have positive : (0 : ℚ) < den := by exact_mod_cast Nat.pos_of_ne_zero some_den
  generalize guessed : (Nat.log2 num : Int) - (Nat.log2 den : Int) = guess
  have low : (2 : ℚ) ^ (guess - 1) < num / den := by
    rw [lt_div_iff₀ positive]
    calc (2 : ℚ) ^ (guess - 1) * den < 2 ^ (guess - 1) * 2 ^ ((Nat.log2 den : Int) + 1) :=
          mul_lt_mul_of_pos_left bottom.2 (by positivity)
      _ = 2 ^ (Nat.log2 num : Int) := by rw [← zpow_add₀ two_ne_zero]; congr 1; omega
      _ ≤ num := top.1
  have high : (num / den : ℚ) < 2 ^ (guess + 1) := by
    rw [div_lt_iff₀ positive]
    calc (num : ℚ) < 2 ^ ((Nat.log2 num : Int) + 1) := top.2
      _ = 2 ^ (guess + 1) * 2 ^ (Nat.log2 den : Int) := by
          rw [← zpow_add₀ two_ne_zero]; congr 1; omega
      _ ≤ 2 ^ (guess + 1) * den := mul_le_mul_of_nonneg_left bottom.1 (by positivity)
  -- The comparison that corrects the guess is one of the ratio with the guessed power.
  have compared : (scaled num den (-guess)).1 < (scaled num den (-guess)).2 ↔ (num / den : ℚ) < 2 ^ guess := by
    have scale := ratio_scaled num den (-guess)
    have below : (0 : ℚ) < (scaled num den (-guess)).2 := by
      exact_mod_cast scaled_pos (Nat.pos_of_ne_zero some_den) (-guess)
    rw [← Nat.cast_lt (α := ℚ), ← div_lt_one below, ← ratio, scale, zpow_neg, ← div_eq_mul_inv,
      div_lt_one (by positivity)]
  simp only [binaryOrder, guessed]
  split
  next less => exact ⟨low.le, by simpa using compared.mp less⟩
  next more => exact ⟨not_lt.mp (mt compared.mpr more), high⟩

/-- Rounding a quotient goes past a whole number from the half behind it on; on the half
itself only past an odd one. -/
theorem lt_roundQuotient_iff (positive : 0 < den) (m : Nat) :
    m < roundQuotient num den ↔
      (m + 1 / 2 : ℚ) < num / den ∨ (m + 1 / 2 : ℚ) = num / den ∧ m % 2 = 1 := by
  have below : (0 : ℚ) < den := by exact_mod_cast positive
  have less : (m + 1 / 2 : ℚ) < num / den ↔ (2 * m + 1) * den < 2 * num := by
    rw [lt_div_iff₀ below, ← Nat.cast_lt (α := ℚ)]
    push_cast
    constructor <;> intro h <;> linarith
  have same : (m + 1 / 2 : ℚ) = num / den ↔ (2 * m + 1) * den = 2 * num := by
    rw [eq_div_iff below.ne', ← Nat.cast_inj (R := ℚ)]
    push_cast
    constructor <;> intro h <;> linarith
  rw [less, same]
  have split : den * (num / den) + num % den = num := Nat.div_add_mod num den
  have small := Nat.mod_lt num positive
  unfold roundQuotient
  generalize num / den = q at *
  generalize num % den = r at *
  obtain before | rfl | behind := Nat.lt_trichotomy m q
  · have step : den * (m + 1) ≤ den * q := Nat.mul_le_mul_left den before
    have : (2 * m + 1) * den < 2 * num := by nlinarith
    simp only [this, true_or, iff_true]
    split_ifs <;> omega
  · have doubled : (2 * m + 1) * den = 2 * (den * m) + den := by ring
    rw [doubled, ← split]
    dsimp only
    split_ifs <;> omega
  · have step : den * (q + 1) ≤ den * m := Nat.mul_le_mul_left den behind
    have : 2 * num < (2 * m + 1) * den := by nlinarith
    dsimp only
    split_ifs <;> omega

/-! ## Patterns -/

/-- What a pattern is made of: steps of the grid's exponent, and a significand that has its
upper bit set unless the grid is the finest. -/
theorem unpack_spec (f : BinaryFormat) (pattern : Nat) :
    f.leastQuantum ≤ (f.unpack pattern).2 ∧
      pattern = ((f.unpack pattern).2 - f.leastQuantum).toNat * 2 ^ f.fractionBits + (f.unpack pattern).1 ∧
      (f.unpack pattern).1 < 2 * 2 ^ f.fractionBits ∧
      ((f.unpack pattern).2 = f.leastQuantum ∨ 2 ^ f.fractionBits ≤ (f.unpack pattern).1) := by
  have split : 2 ^ f.fractionBits * (pattern / 2 ^ f.fractionBits) + pattern % 2 ^ f.fractionBits = pattern :=
    Nat.div_add_mod ..
  have small := Nat.mod_lt pattern (Nat.two_pow_pos f.fractionBits)
  simp only [unpack, Nat.pow_eq]
  split_ifs with subnormal
  · rw [subnormal] at split
    refine ⟨Int.le_refl _, ?_, ?_, .inl rfl⟩
    · simp only [sub_self, Int.toNat_zero, zero_mul, zero_add]
      omega
    · omega
  · obtain ⟨steps, exponent⟩ := Nat.exists_eq_add_of_lt (Nat.pos_of_ne_zero subnormal)
    rw [exponent] at split ⊢
    refine ⟨by omega, ?_, by omega, .inr (by omega)⟩
    have : (f.leastQuantum + ((0 + steps + 1 - 1 : Nat) : Int) - f.leastQuantum).toNat = steps := by omega
    rw [this]
    nlinarith

/-- The middle between a pattern's magnitude and the next on its grid. -/
def middle (f : BinaryFormat) (pattern : Nat) : ℚ :=
  ((f.unpack pattern).1 + 1 / 2) * 2 ^ (f.unpack pattern).2

/-- Rounding takes the ratio to a grid on which it has no more bits than fit, and no fewer
unless the grid is the finest. -/
theorem round_spec (some_num : num ≠ 0) (positive : 0 < den) :
    ∃ (quantum : Int) (m : Nat), f.leastQuantum ≤ quantum ∧
      f.round num den = min ((quantum - f.leastQuantum).toNat * 2 ^ f.fractionBits + m) f.infinity ∧
      (∀ n : Nat, n < m ↔ (n + 1 / 2 : ℚ) * 2 ^ quantum < num / den ∨
        (n + 1 / 2 : ℚ) * 2 ^ quantum = num / den ∧ n % 2 = 1) ∧
      (num / den : ℚ) < 2 * 2 ^ f.fractionBits * 2 ^ quantum ∧
      (quantum = f.leastQuantum ∨ (2 : ℚ) ^ f.fractionBits * 2 ^ quantum ≤ num / den) := by
  obtain ⟨low, high⟩ := binaryOrder_spec some_num positive.ne'
  set quantum := max (binaryOrder num den - f.fractionBits) f.leastQuantum with chosen
  have step : (0 : ℚ) < 2 ^ quantum := by positivity
  have scaledRatio : ((scaled num den (-quantum)).1 : ℚ) / (scaled num den (-quantum)).2 =
      num / den / 2 ^ quantum := by
    rw [← ratio, ratio_scaled, zpow_neg, div_eq_mul_inv (num / den : ℚ)]
  refine ⟨quantum, roundQuotient (scaled num den (-quantum)).1 (scaled num den (-quantum)).2,
    le_max_right .., ?_, ?_, ?_, ?_⟩
  · simp only [round, some_num, ↓reduceIte, ← chosen, Nat.pow_eq]
  · intro n
    rw [lt_roundQuotient_iff (scaled_pos positive _), scaledRatio, lt_div_iff₀ step, eq_div_iff step.ne']
  · calc (num / den : ℚ) < 2 ^ (binaryOrder num den + 1) := high
      _ ≤ 2 ^ (1 + (f.fractionBits : Int) + quantum) := by
          apply zpow_le_zpow_right₀ one_le_two
          omega
      _ = 2 * 2 ^ f.fractionBits * 2 ^ quantum := by
          rw [zpow_add₀ two_ne_zero, zpow_add₀ two_ne_zero, zpow_one, zpow_natCast]
  · obtain finest | above := max_choice (binaryOrder num den - f.fractionBits) f.leastQuantum |>.symm
    · exact .inl (chosen.trans finest)
    · refine .inr ?_
      calc (2 : ℚ) ^ f.fractionBits * 2 ^ quantum = 2 ^ ((f.fractionBits : Int) + quantum) := by
            rw [zpow_add₀ two_ne_zero, zpow_natCast]
        _ = 2 ^ binaryOrder num den := by
            congr 1
            omega
        _ ≤ num / den := low

section

variable {x : ℚ} {quantum : Int} {bits m : Nat}
  (behind : ∀ n : Nat, n < m ↔ (n + 1 / 2 : ℚ) * 2 ^ quantum < x ∨
    (n + 1 / 2 : ℚ) * 2 ^ quantum = x ∧ n % 2 = 1)

include behind

theorem significand_le (fits : x < 2 * 2 ^ bits * 2 ^ quantum) : m ≤ 2 * 2 ^ bits := by
  by_contra more
  have past := (behind (2 * 2 ^ bits)).mp (by omega)
  push_cast at past
  have step : (0 : ℚ) < 2 ^ quantum := by positivity
  rcases past with past | ⟨past, _⟩ <;> nlinarith

theorem le_significand (fills : 2 ^ bits * 2 ^ quantum ≤ x) : 2 ^ bits ≤ m := by
  have some_step := Nat.two_pow_pos bits
  have before : 2 ^ bits - 1 < m := by
    rw [behind]
    left
    have step : (0 : ℚ) < 2 ^ quantum := by positivity
    push_cast [Nat.cast_sub some_step]
    nlinarith
  omega

end

/-- The greatest significands of a grid do not reach past the least ones of a coarser grid. -/
theorem grid_le {bits fine coarse : Nat} {least : Int} (coarser : fine < coarse) :
    (2 * 2 ^ bits * 2 ^ (least + fine) : ℚ) ≤ 2 ^ bits * 2 ^ (least + coarse) := by
  calc (2 * 2 ^ bits * 2 ^ (least + fine) : ℚ) = 2 ^ bits * 2 ^ (least + fine + 1) := by
        rw [zpow_add_one₀ two_ne_zero]; ring
    _ ≤ 2 ^ bits * 2 ^ (least + coarse) := by
        apply mul_le_mul_of_nonneg_left _ (by positivity)
        apply zpow_le_zpow_right₀ one_le_two
        omega

/-- A ratio is rounded past a finite pattern exactly if it lies behind the middle between
the pattern and its successor, or on it while the significand is odd. -/
theorem lt_round_iff (positive : 0 < den) (finite : pattern < f.infinity) :
    pattern < f.round num den ↔
      f.middle pattern < num / den ∨ f.middle pattern = num / den ∧ (f.unpack pattern).1 % 2 = 1 := by
  obtain ⟨least, composed, bounded, upper⟩ := unpack_spec f pattern
  unfold middle
  generalize (f.unpack pattern).1 = m at *
  generalize (f.unpack pattern).2 = q at *
  by_cases nothing : num = 0
  · subst nothing
    have ahead : (0 : ℚ) < (m + 1 / 2) * 2 ^ q := by positivity
    simp only [round, ↓reduceIte, Nat.not_lt_zero, Nat.cast_zero, zero_div, ahead.not_gt, ahead.ne',
      false_and, or_self]
  obtain ⟨quantum, n, leastQuantum, rounded, behind, fits, fills⟩ := round_spec (f := f) nothing positive
  rw [rounded, lt_min_iff]
  simp only [finite, and_true]
  obtain ⟨steps, rfl⟩ := Int.le.dest least
  obtain ⟨others, rfl⟩ := Int.le.dest leastQuantum
  simp only [add_sub_cancel_left, Int.toNat_natCast] at composed ⊢
  -- A ratio on a coarser grid lies behind everything on a finer one, and so do the patterns.
  obtain finer | rfl | coarser := Nat.lt_trichotomy others steps
  · have top : n ≤ 2 * 2 ^ f.fractionBits := significand_le behind fits
    have grid : (others + 1) * 2 ^ f.fractionBits ≤ steps * 2 ^ f.fractionBits :=
      Nat.mul_le_mul_right _ finer
    have set_bit : 2 ^ f.fractionBits ≤ m := upper.resolve_left (by omega)
    have before : (num / den : ℚ) < (m + 1 / 2) * 2 ^ (f.leastQuantum + steps) := by
      calc (num / den : ℚ) < 2 * 2 ^ f.fractionBits * 2 ^ (f.leastQuantum + others) := fits
        _ ≤ 2 ^ f.fractionBits * 2 ^ (f.leastQuantum + steps) := grid_le finer
        _ ≤ (m + 1 / 2) * 2 ^ (f.leastQuantum + steps) := by
            apply mul_le_mul_of_nonneg_right _ (by positivity)
            have : ((2 ^ f.fractionBits : Nat) : ℚ) ≤ m := by exact_mod_cast set_bit
            push_cast at this
            linarith
    have not_past : ¬ pattern < others * 2 ^ f.fractionBits + n := by
      have : (others + 1) * 2 ^ f.fractionBits = others * 2 ^ f.fractionBits + 2 ^ f.fractionBits := by ring
      omega
    simp only [not_past, before.not_gt, before.ne', false_or, false_and]
  · rw [composed, Nat.add_lt_add_iff_left, behind]
  · have bottom : 2 ^ f.fractionBits ≤ n := le_significand behind (fills.resolve_left (by omega))
    have grid : (steps + 1) * 2 ^ f.fractionBits ≤ others * 2 ^ f.fractionBits :=
      Nat.mul_le_mul_right _ coarser
    have past : (m + 1 / 2 : ℚ) * 2 ^ (f.leastQuantum + steps) < num / den := by
      have large := fills.resolve_left (by omega)
      calc (m + 1 / 2 : ℚ) * 2 ^ (f.leastQuantum + steps)
          < 2 * 2 ^ f.fractionBits * 2 ^ (f.leastQuantum + steps) := by
            apply mul_lt_mul_of_pos_right _ (by positivity)
            have : ((m + 1 : Nat) : ℚ) ≤ (2 * 2 ^ f.fractionBits : Nat) := by exact_mod_cast bounded
            push_cast at this
            linarith
        _ ≤ 2 ^ f.fractionBits * 2 ^ (f.leastQuantum + others) := grid_le coarser
        _ ≤ num / den := large
    have : (steps + 1) * 2 ^ f.fractionBits = steps * 2 ^ f.fractionBits + 2 ^ f.fractionBits := by ring
    exact iff_of_true (by omega) (.inl past)

theorem round_le_infinity (f : BinaryFormat) (num den : Nat) : f.round num den ≤ f.infinity := by
  unfold round
  split
  · exact Nat.zero_le _
  · exact Nat.min_le_right ..

/-- Equal ratios are rounded to the same pattern. -/
theorem round_congr {num' den' : Nat} (positive : 0 < den) (positive' : 0 < den')
    (same : (num / den : ℚ) = num' / den') : f.round num den = f.round num' den' := by
  have alike : ∀ pattern < f.infinity, pattern < f.round num den ↔ pattern < f.round num' den' := by
    intro pattern finite
    rw [lt_round_iff positive finite, lt_round_iff positive' finite, same]
  have top := round_le_infinity f num den
  have top' := round_le_infinity f num' den'
  by_contra different
  obtain less | more := Nat.lt_or_gt_of_ne different
  · exact absurd ((alike _ (by omega)).mpr less) (Nat.lt_irrefl _)
  · exact absurd ((alike _ (by omega)).mp more) (Nat.lt_irrefl _)

/-- The ratios that are rounded to a positive finite pattern. -/
theorem round_eq_iff (positive : 0 < den) (finite : pattern + 1 < f.infinity) :
    f.round num den = pattern + 1 ↔
      (f.middle pattern < num / den ∨ f.middle pattern = num / den ∧ (f.unpack pattern).1 % 2 = 1) ∧
        ¬ (f.middle (pattern + 1) < num / den ∨
          f.middle (pattern + 1) = num / den ∧ (f.unpack (pattern + 1)).1 % 2 = 1) := by
  rw [← lt_round_iff positive (by omega), ← lt_round_iff positive finite]
  omega

end Accessibility.BinaryFormat
