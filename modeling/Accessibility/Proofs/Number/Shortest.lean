import Accessibility.Number.Decimal
import Accessibility.Number.Shortest
import Accessibility.Proofs.Number.Rounding

/-! The shortest text of a number reads back as that number. The rounding interval that
the digits are looked for in holds exactly the ratios that are rounded to the pattern
(`holds_iff_round`), and some grid of the seventeen has a point in it (`round_digits`);
the positional text of the digits writes the same number (`ofText?_positional`). For
singles this makes reading undo writing (`ofText?_text`); a NaN comes back as a NaN. -/
namespace Accessibility

namespace Shortest

open BinaryFormat

variable {f : BinaryFormat} {num den pattern : Nat}

/-! ## The rounding interval -/

/-- A pattern's significand and grid are determined by what it is made of. -/
theorem unpack_eq {m steps : Nat} (composed : pattern = steps * 2 ^ f.fractionBits + m)
    (bounded : m < 2 * 2 ^ f.fractionBits) (upper : steps = 0 ∨ 2 ^ f.fractionBits ≤ m) :
    f.unpack pattern = (m, f.leastQuantum + steps) := by
  have positive := Nat.two_pow_pos f.fractionBits
  by_cases small : m < 2 ^ f.fractionBits
  · obtain rfl := upper.resolve_right (by omega)
    have quotient : pattern / 2 ^ f.fractionBits = 0 := Nat.div_eq_of_lt (by omega)
    have rest : pattern % 2 ^ f.fractionBits = m := by rw [Nat.mod_eq_of_lt (by omega)]; omega
    simp [unpack, Nat.pow_eq, quotient, rest]
  · obtain ⟨fraction, rfl⟩ := Nat.exists_eq_add_of_le (Nat.not_lt.mp small)
    have divided : pattern = fraction + 2 ^ f.fractionBits * (steps + 1) := by rw [composed]; ring
    have quotient : pattern / 2 ^ f.fractionBits = steps + 1 := by
      rw [divided, Nat.add_mul_div_left _ _ positive, Nat.div_eq_of_lt (by omega)]
      omega
    have rest : pattern % 2 ^ f.fractionBits = fraction := by
      rw [divided, Nat.add_mul_mod_self_left, Nat.mod_eq_of_lt (by omega)]
    simp [unpack, Nat.pow_eq, quotient, rest]

/-- The pattern below a power of two lies on the next finer grid, all others on the same
grid as their successors. -/
theorem unpack_pred (f : BinaryFormat) (pattern : Nat) :
    f.unpack pattern =
      if (f.unpack (pattern + 1)).1 = 2 ^ f.fractionBits ∧ f.leastQuantum < (f.unpack (pattern + 1)).2 then
        (2 * 2 ^ f.fractionBits - 1, (f.unpack (pattern + 1)).2 - 1)
      else ((f.unpack (pattern + 1)).1 - 1, (f.unpack (pattern + 1)).2) := by
  obtain ⟨least, composed, bounded, upper⟩ := unpack_spec f (pattern + 1)
  have positive := Nat.two_pow_pos f.fractionBits
  generalize (f.unpack (pattern + 1)).1 = m at *
  generalize (f.unpack (pattern + 1)).2 = q at *
  obtain ⟨steps, rfl⟩ := Int.le.dest least
  simp only [add_sub_cancel_left, Int.toNat_natCast] at composed
  split_ifs with border
  · obtain ⟨rfl, coarse⟩ := border
    obtain ⟨steps, rfl⟩ := Nat.exists_eq_succ_of_ne_zero (n := steps) (by omega)
    have below : pattern = steps * 2 ^ f.fractionBits + (2 * 2 ^ f.fractionBits - 1) := by
      rw [Nat.succ_mul] at composed
      omega
    rw [unpack_eq below (by omega) (.inr (by omega))]
    push_cast
    congr 1
    omega
  · have some_bit : m ≠ 0 := by
      rintro rfl
      obtain finest | large := upper
      · obtain rfl : steps = 0 := by omega
        omega
      · omega
    have below : pattern = steps * 2 ^ f.fractionBits + (m - 1) := by omega
    refine unpack_eq below (by omega) ?_
    by_cases finest : steps = 0
    · exact .inl finest
    · have := upper.resolve_left (by omega)
      exact .inr (by omega)

/-- The interval of a pattern lies around it, between the middles, and is closed where the
significand is even. -/
theorem target_spec (f : BinaryFormat) (pattern : Nat) :
    0 < (target f (pattern + 1)).den ∧
      ((target f (pattern + 1)).value : ℚ) / (target f (pattern + 1)).den =
        (f.unpack (pattern + 1)).1 * 2 ^ (f.unpack (pattern + 1)).2 ∧
      ((target f (pattern + 1)).low : ℚ) / (target f (pattern + 1)).den = f.middle pattern ∧
      ((target f (pattern + 1)).high : ℚ) / (target f (pattern + 1)).den = f.middle (pattern + 1) ∧
      ((target f (pattern + 1)).closed = true ↔ (f.unpack (pattern + 1)).1 % 2 = 0) := by
  obtain ⟨least, composed, bounded, upper⟩ := unpack_spec f (pattern + 1)
  have pred := unpack_pred f pattern
  have unit := ratio_scaled 1 4 (f.unpack (pattern + 1)).2
  have some_bit : (f.unpack (pattern + 1)).1 ≠ 0 := by
    intro nothing
    obtain finest | large := upper
    · rw [nothing, finest, sub_self, Int.toNat_zero] at composed
      omega
    · have := Nat.two_pow_pos f.fractionBits
      omega
  have step : (2 : ℚ) ^ ((f.unpack (pattern + 1)).2 - 1) = 2 ^ (f.unpack (pattern + 1)).2 / 2 :=
    zpow_sub_one₀ two_ne_zero _
  rw [BinaryFormat.middle, BinaryFormat.middle, pred]
  simp only [target, Nat.pow_eq, decide_eq_true_eq, Bool.and_eq_true, ratio] at unit ⊢
  generalize (f.unpack (pattern + 1)).1 = m at *
  generalize (f.unpack (pattern + 1)).2 = q at *
  refine ⟨scaled_pos (by decide) q, ?_, ?_, ?_, trivial⟩
  · push_cast
    rw [mul_div_assoc, unit]
    ring
  · rw [Nat.cast_mul, mul_div_assoc, unit]
    split_ifs with border
    · obtain ⟨rfl, coarse⟩ := border
      have := Nat.two_pow_pos f.fractionBits
      push_cast [Nat.cast_sub (show 1 ≤ 4 * 2 ^ f.fractionBits by omega),
        Nat.cast_sub (show 1 ≤ 2 * 2 ^ f.fractionBits by omega), step]
      ring
    · push_cast [Nat.cast_sub (show 2 ≤ 4 * m by omega), Nat.cast_sub (show 1 ≤ m by omega)]
      ring
  · push_cast
    rw [mul_div_assoc, unit]
    ring

/-- The interval of a pattern holds what is rounded to it and nothing else. -/
theorem holds_iff_round (some_fraction : f.fractionBits ≠ 0) (positive : 0 < den)
    (finite : pattern + 1 < f.infinity) :
    (target f (pattern + 1)).holds num den = true ↔ f.round num den = pattern + 1 := by
  obtain ⟨under, _, low, high, closed⟩ := target_spec f pattern
  have parity : (f.unpack pattern).1 % 2 = 1 ↔ (f.unpack (pattern + 1)).1 % 2 = 0 := by
    obtain ⟨least, composed, bounded, upper⟩ := unpack_spec f (pattern + 1)
    obtain ⟨bits, more⟩ := Nat.exists_eq_succ_of_ne_zero some_fraction
    rw [unpack_pred f pattern]
    rw [more, Nat.pow_succ] at *
    have := Nat.two_pow_pos bits
    split_ifs with border
    · dsimp only
      omega
    · have some_bit : (f.unpack (pattern + 1)).1 ≠ 0 := by
        intro nothing
        obtain finest | large := upper
        · rw [nothing, finest, sub_self, Int.toNat_zero] at composed
          omega
        · omega
      dsimp only
      omega
  have underneath : (0 : ℚ) < (target f (pattern + 1)).den := by exact_mod_cast under
  have below : (0 : ℚ) < den := by exact_mod_cast positive
  have compare : ∀ a : Nat, (a * den < num * (target f (pattern + 1)).den ↔
        (a / (target f (pattern + 1)).den : ℚ) < num / den) ∧
      (a * den = num * (target f (pattern + 1)).den ↔
        (a / (target f (pattern + 1)).den : ℚ) = num / den) := by
    intro a
    rw [div_lt_div_iff₀ underneath below, div_eq_div_iff underneath.ne' below.ne']
    exact_mod_cast And.intro Iff.rfl Iff.rfl
  rw [round_eq_iff positive finite, ← low, ← high, ← (compare _).1, ← (compare _).2, ← (compare _).1,
    ← (compare _).2, parity, ← closed]
  have odd : (f.unpack (pattern + 1)).1 % 2 = 1 ↔ ¬ (target f (pattern + 1)).closed = true := by
    rw [closed]
    omega
  rw [odd]
  unfold Target.holds
  dsimp only
  split_ifs with even <;>
    simp only [even, Bool.and_eq_true, decide_eq_true_eq, Bool.false_eq_true, not_true_eq_false,
      not_false_eq_true, and_true, and_false, or_false] <;>
    omega

/-! ## The grids -/

theorem powerOfTen_pos (e : Int) : 0 < (powerOfTen e).1 ∧ 0 < (powerOfTen e).2 := by
  unfold powerOfTen
  split <;> exact ⟨Nat.pos_of_ne_zero (by simp), Nat.pos_of_ne_zero (by simp)⟩

theorem ratio_powerOfTen (e : Int) : ratio (powerOfTen e) = 10 ^ e := by
  unfold powerOfTen ratio
  split
  next up =>
    obtain ⟨n, rfl⟩ := Int.eq_ofNat_of_zero_le up
    simp
  next down =>
    obtain ⟨n, same⟩ := Int.eq_ofNat_of_zero_le (a := -e) (by omega)
    obtain rfl : e = -(n : Int) := by omega
    simp

/-- A point that a grid is found to have lies in the interval. -/
theorem holds_of_onGrid {t : Target} {e : Int} {n : Nat} (found : t.onGrid e = some n) :
    t.holds (n * (powerOfTen e).1) (powerOfTen e).2 = true := by
  unfold Target.onGrid at found
  dsimp only at found
  split_ifs at found <;> simp_all

/-- A grid whose points are closer together than the value and the middle above it has a
point in the interval. -/
theorem onGrid_ne_none (some_fraction : f.fractionBits ≠ 0) (finite : pattern + 1 < f.infinity) {e : Int}
    (fine : (10 : ℚ) ^ e < 2 ^ (f.unpack (pattern + 1)).2 / 2) :
    (target f (pattern + 1)).onGrid e ≠ none := by
  set t := target f (pattern + 1) with interval
  obtain ⟨under, value, low, high, _⟩ := target_spec f pattern
  rw [← interval] at under value low high
  obtain ⟨numPositive, denPositive⟩ := powerOfTen_pos e
  have step := ratio_powerOfTen e
  generalize split : powerOfTen e = power at *
  obtain ⟨num, den⟩ := power
  simp only [ratio] at step numPositive denPositive
  have underneath : (0 : ℚ) < t.den := by exact_mod_cast under
  have below : (0 : ℚ) < den := by exact_mod_cast denPositive
  set lower := t.value * den / (t.den * num) with floor
  have before : lower * (t.den * num) ≤ t.value * den := Nat.div_mul_le_self ..
  have behind : t.value * den < (lower + 1) * (t.den * num) :=
    Nat.lt_mul_of_div_lt (Nat.lt_succ_self _) (Nat.mul_pos under numPositive)
  -- The next point of the grid lies behind the value, but not as far as the middle above.
  have past : (t.value / t.den : ℚ) < ((lower + 1) * num : Nat) / den := by
    rw [div_lt_div_iff₀ underneath below]
    have : t.value * den < (lower + 1) * num * t.den := by nlinarith
    exact_mod_cast this
  have near : (((lower + 1) * num : Nat) / den : ℚ) ≤ t.value / t.den + 10 ^ e := by
    have : (lower * num / den : ℚ) ≤ t.value / t.den := by
      rw [div_le_div_iff₀ below underneath]
      have : lower * num * t.den ≤ t.value * den := by nlinarith
      exact_mod_cast this
    push_cast
    rw [← step]
    calc ((lower + 1) * num / den : ℚ) = lower * num / den + num / den := by ring
      _ ≤ t.value / t.den + num / den := by linarith
  have reached : t.holds ((lower + 1) * num) den = true := by
    rw [interval, holds_iff_round some_fraction denPositive finite, round_eq_iff denPositive finite]
    have lowest : f.middle pattern ≤ t.value / t.den := by
      rw [← low]
      apply div_le_div_of_nonneg_right _ underneath.le
      simp only [interval, target]
      exact_mod_cast Nat.mul_le_mul_right _ (Nat.sub_le ..)
    have highest : (t.value / t.den + 10 ^ e : ℚ) < f.middle (pattern + 1) := by
      rw [value, BinaryFormat.middle]
      linarith
    refine ⟨.inl (lowest.trans_lt past), ?_⟩
    rintro (higher | ⟨on, _⟩) <;> linarith
  unfold Target.onGrid
  simp only [split, ← floor, reached]
  split_ifs <;> simp_all

/-- A search that gets as far as a fine enough grid ends in the interval. -/
theorem holds_search (some_fraction : f.fractionBits ≠ 0) (finite : pattern + 1 < f.infinity) (count : Nat)
    {e : Int} (fine : (10 : ℚ) ^ (e - count) < 2 ^ (f.unpack (pattern + 1)).2 / 2) :
    (target f (pattern + 1)).holds
      (((target f (pattern + 1)).search (count + 1) e).1 *
        (powerOfTen ((target f (pattern + 1)).search (count + 1) e).2).1)
      (powerOfTen ((target f (pattern + 1)).search (count + 1) e).2).2 = true := by
  induction count generalizing e with
  | zero =>
    obtain ⟨n, found⟩ := Option.ne_none_iff_exists'.mp
      (onGrid_ne_none some_fraction finite (by simpa using fine))
    simp only [Target.search, found]
    exact holds_of_onGrid found
  | succ count ih =>
    rw [Target.search]
    cases found : (target f (pattern + 1)).onGrid e with
    | some n => exact holds_of_onGrid found
    | none =>
      apply ih
      rwa [show e - 1 - (count : Int) = e - ((count + 1 : Nat) : Int) by push_cast; ring]

/-- A whole number lies between the powers of ten that its digits count. -/
theorem digitCount_spec {n : Nat} (some_number : n ≠ 0) :
    (10 : ℚ) ^ ((digitCount n : Int) - 1) ≤ n ∧ (n : ℚ) < 10 ^ (digitCount n : Int) := by
  have count : 0 < digitCount n := Nat.length_toDigits_pos
  constructor
  · have : ¬ n < 10 ^ (digitCount n - 1) := by
      intro less
      by_cases single : digitCount n = 1
      · rw [single] at less
        omega
      · have := (Nat.length_toDigits_le_iff (b := 10) (by decide) (by omega)).mpr less
        unfold digitCount at *
        omega
    rw [show (digitCount n : Int) - 1 = ((digitCount n - 1 : Nat) : Int) by omega, zpow_natCast]
    exact_mod_cast Nat.not_lt.mp this
  · rw [zpow_natCast]
    exact_mod_cast (Nat.length_toDigits_le_iff (b := 10) (by decide) count).mp (Nat.le_refl _)

/-- The decimal order of a ratio does not exceed it. -/
theorem decimalOrder_le (some_num : num ≠ 0) (some_den : den ≠ 0) :
    (10 : ℚ) ^ decimalOrder num den ≤ num / den := by
  have positive : (0 : ℚ) < den := by exact_mod_cast Nat.pos_of_ne_zero some_den
  obtain ⟨top, _⟩ := digitCount_spec some_num
  obtain ⟨_, bottom⟩ := digitCount_spec some_den
  have guess := ratio_powerOfTen ((digitCount num : Int) - digitCount den)
  have below := (powerOfTen_pos ((digitCount num : Int) - digitCount den)).2
  simp only [decimalOrder, ratio] at guess ⊢
  split
  · rw [le_div_iff₀ positive]
    calc (10 : ℚ) ^ ((digitCount num : Int) - digitCount den - 1) * den
        ≤ 10 ^ ((digitCount num : Int) - digitCount den - 1) * 10 ^ (digitCount den : Int) :=
          mul_le_mul_of_nonneg_left bottom.le (by positivity)
      _ = 10 ^ ((digitCount num : Int) - 1) := by rw [← zpow_add₀ (by norm_num)]; congr 1; omega
      _ ≤ num := top
  next not_less =>
    rw [← guess, div_le_div_iff₀ (by exact_mod_cast below) positive]
    exact_mod_cast Nat.not_lt.mp not_less

/-- The shortest digits of a positive pattern, as many as they are, are rounded to it. Seventeen
of them are enough for any format whose significands have half as many. -/
theorem round_digits (some_fraction : f.fractionBits ≠ 0) (narrow : 4 * 2 ^ f.fractionBits ≤ 10 ^ 16)
    (finite : pattern + 1 < f.infinity) :
    f.round ((digits f (pattern + 1)).1 * (powerOfTen (digits f (pattern + 1)).2).1)
      (powerOfTen (digits f (pattern + 1)).2).2 = pattern + 1 := by
  rw [← holds_iff_round some_fraction (powerOfTen_pos _).2 finite]
  apply holds_search some_fraction finite 16
  obtain ⟨under, value, _⟩ := target_spec f pattern
  obtain ⟨_, composed, bounded, upper⟩ := unpack_spec f (pattern + 1)
  have some_value : (target f (pattern + 1)).value ≠ 0 := by
    intro nothing
    rw [nothing, Nat.cast_zero, zero_div, eq_comm] at value
    have power : (2 : ℚ) ^ (f.unpack (pattern + 1)).2 ≠ 0 := zpow_ne_zero _ two_ne_zero
    have no_bit : (f.unpack (pattern + 1)).1 = 0 := by
      exact_mod_cast (mul_eq_zero.mp value).resolve_right power
    obtain finest | large := upper
    · rw [no_bit, finest, sub_self, Int.toNat_zero] at composed
      omega
    · have := Nat.two_pow_pos f.fractionBits
      omega
  have order := decimalOrder_le some_value under.ne'
  rw [value] at order
  have grid : (0 : ℚ) < 2 ^ (f.unpack (pattern + 1)).2 := by positivity
  have few : (2 * (f.unpack (pattern + 1)).1 : ℚ) < 10 ^ 16 := by
    have : 2 * (f.unpack (pattern + 1)).1 < 10 ^ 16 := by omega
    exact_mod_cast this
  show (10 : ℚ) ^ (decimalOrder (target f (pattern + 1)).value (target f (pattern + 1)).den - ((16 : Nat) : Int)) < _
  rw [zpow_sub₀ (by norm_num), zpow_natCast, div_lt_div_iff₀ (by positivity) two_pos]
  nlinarith

end Shortest

end Accessibility
