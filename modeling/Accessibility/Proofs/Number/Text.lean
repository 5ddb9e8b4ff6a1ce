import Mathlib.Data.List.TakeWhile
import Accessibility.Proofs.Number.Shortest

/-! The text of a number reads back as that number. The positional text of digits writes
what the digits stand for (`writes_positional`), and reading rounds what a text writes
once (`magnitude_eq_round`), which for the shortest digits of a single gives the single
again (`ofText?_text`). A NaN comes back as a NaN, and nothing else does. -/
namespace Accessibility

namespace Numeral

open BinaryFormat Shortest

variable {f : BinaryFormat} {num den : Nat}

/-! ## Positional text -/

/-- Digits with a point among them, or without one, are the whole number of their digits,
moved behind the point. -/
theorem unsigned?_digits (signed : Bool) (whole fraction : List Char) (some_digit : whole ≠ [])
    (digits : ∀ c ∈ whole, c.isDigit = true) (behind : ∀ c ∈ fraction, c.isDigit = true) :
    unsigned? signed (whole ++ if fraction.isEmpty then [] else '.' :: fraction) =
      some (.decimal signed (ofDigits (whole ++ fraction)) (-fraction.length)) := by
  have taken (cs : List Char) : (∀ c ∈ cs, c.isDigit = true) → splitDigits cs = (cs, []) := by
    intro all
    have := @List.takeWhile_append_of_pos _ _ _ [] all
    have := @List.dropWhile_append_of_pos _ _ _ [] all
    simp_all [splitDigits]
  cases fraction with
  | nil =>
    simp [unsigned?, taken whole digits, some_digit, exponent?]
  | cons c cs =>
    have split : splitDigits (whole ++ '.' :: c :: cs) = (whole, '.' :: c :: cs) := by
      simp [splitDigits, List.takeWhile_append_of_pos digits, List.dropWhile_append_of_pos digits]
    simp [unsigned?, split, taken _ behind, exponent?]

/-- A list of digits without the zeros that it ends in, and those zeros. -/
theorem exists_replicate_zero (cs : List Char) :
    ∃ k, cs = (cs.reverse.dropWhile (· = '0')).reverse ++ List.replicate k '0' := by
  have zeros : ∀ c ∈ cs.reverse.takeWhile (· = '0'), c = '0' := fun c mem => by
    simpa using List.mem_takeWhile_imp mem
  refine ⟨(cs.reverse.takeWhile (· = '0')).length, ?_⟩
  calc cs = (cs.reverse.takeWhile (· = '0') ++ cs.reverse.dropWhile (· = '0')).reverse := by
        rw [List.takeWhile_append_dropWhile, List.reverse_reverse]
    _ = (cs.reverse.dropWhile (· = '0')).reverse ++ (cs.reverse.takeWhile (· = '0')).reverse :=
        List.reverse_append
    _ = _ := by
        conv_lhs => rw [List.eq_replicate_of_mem zeros, List.reverse_replicate]

theorem isDigit_toDigits {n : Nat} {c : Char} (mem : c ∈ Nat.toDigits 10 n) : c.isDigit = true :=
  Nat.isDigit_of_mem_toDigits (by decide) (by decide) mem

theorem ofDigits_toDigits (n : Nat) : ofDigits (Nat.toDigits 10 n) = n :=
  Nat.ofDigitChars_ten_toDigits

theorem ofDigits_append_zeros (cs : List Char) (zeros : Nat) :
    ofDigits (cs ++ List.replicate zeros '0') = 10 ^ zeros * ofDigits cs := by
  rw [ofDigits, ofDigits, List.foldl_append]
  exact Nat.ofDigitChars_replicate_zero

theorem ofDigits_zeros_append (zeros : Nat) (cs : List Char) :
    ofDigits (List.replicate zeros '0' ++ cs) = ofDigits cs := by
  rw [ofDigits, ofDigits, List.foldl_append]
  congr 1
  exact ofDigits_append_zeros [] zeros

/-- A text that starts with a digit and is read as the decimal digits of a number. -/
def Writes (signed : Bool) (cs : List Char) (value : ℚ) : Prop :=
  (∃ c rest, cs = c :: rest ∧ c.isDigit = true) ∧
    ∃ digits exponent, unsigned? signed cs = some (.decimal signed digits exponent) ∧
      (digits * 10 ^ exponent : ℚ) = value

theorem writes_pointed (signed : Bool) {whole fraction : List Char} (some_digit : whole ≠ [])
    (digits : ∀ c ∈ whole, c.isDigit = true) (behind : ∀ c ∈ fraction, c.isDigit = true) {value : ℚ}
    (same : (ofDigits (whole ++ fraction) * 10 ^ (-fraction.length : Int) : ℚ) = value) :
    Writes signed (whole ++ if fraction.isEmpty then [] else '.' :: fraction) value := by
  refine ⟨?_, _, _, unsigned?_digits signed whole fraction some_digit digits behind, same⟩
  obtain ⟨c, rest, rfl⟩ := List.exists_cons_of_ne_nil some_digit
  exact ⟨c, _, List.cons_append, digits c (.head _)⟩

/-- Digits with zeros behind them. -/
theorem writes_shifted (signed : Bool) (n zeros : Nat) :
    Writes signed (Nat.toDigits 10 n ++ List.replicate zeros '0') (n * 10 ^ zeros) := by
  have digits : ∀ c ∈ Nat.toDigits 10 n ++ List.replicate zeros '0', c.isDigit = true := by
    simp only [List.mem_append, List.mem_replicate]
    rintro c (mem | ⟨_, rfl⟩)
    · exact isDigit_toDigits mem
    · decide
  have value : (ofDigits (Nat.toDigits 10 n ++ List.replicate zeros '0' ++ []) *
      10 ^ (-([] : List Char).length : Int) : ℚ) = n * 10 ^ zeros := by
    rw [List.append_nil, ofDigits_append_zeros, ofDigits_toDigits]
    simp [mul_comm]
  simpa using writes_pointed signed (by simp [Nat.toDigits_ne_nil]) digits (by simp) value

/-- Digits with a point among them; the zeros that the last places end in are left out. -/
theorem writes_places (signed : Bool) {padded : List Char} (digits : ∀ c ∈ padded, c.isDigit = true)
    {places : Nat} (long : places < padded.length) :
    let whole := padded.take (padded.length - places)
    let fraction := ((padded.drop (padded.length - places)).reverse.dropWhile (· = '0')).reverse
    Writes signed (whole ++ if fraction.isEmpty then [] else '.' :: fraction)
      (ofDigits padded * 10 ^ (-places : Int)) := by
  intro whole fraction
  obtain ⟨k, zeros⟩ := exists_replicate_zero (padded.drop (padded.length - places))
  have parts : padded = whole ++ fraction ++ List.replicate k '0' := by
    rw [List.append_assoc, ← zeros, List.take_append_drop]
  have counted : fraction.length + k = places := by
    have width := congrArg List.length parts
    rw [List.length_append, List.length_append, List.length_replicate, List.length_take] at width
    omega
  apply writes_pointed
  · exact List.ne_nil_of_length_pos (by simp [whole]; omega)
  · exact fun c mem => digits c (List.mem_of_mem_take mem)
  · intro c mem
    rw [parts] at digits
    exact digits c (by simp [mem])
  · rw [parts, ofDigits_append_zeros, ← counted]
    push_cast
    rw [neg_add, zpow_add₀ (by norm_num), zpow_neg, zpow_neg, zpow_natCast, zpow_natCast]
    field_simp

/-- The positional text of a number starts with a digit and writes that number. -/
theorem writes_positional (signed : Bool) (n : Nat) (e : Int) :
    Writes signed (positional n e).toList (n * 10 ^ e) := by
  unfold positional
  split
  next up =>
    obtain ⟨zeros, rfl⟩ := Int.eq_ofNat_of_zero_le up
    simpa using writes_shifted signed n zeros
  next down =>
    obtain ⟨places, same⟩ := Int.eq_ofNat_of_zero_le (a := -e) (by omega)
    obtain rfl : e = -(places : Int) := by omega
    simp only [neg_neg, Int.toNat_natCast]
    set padded := List.replicate (places + 1 - (Nat.toDigits 10 n).length) '0' ++ Nat.toDigits 10 n
      with padding
    have digits : ∀ c ∈ padded, c.isDigit = true := by
      simp only [padding, List.mem_append, List.mem_replicate]
      rintro c (⟨_, rfl⟩ | mem)
      · decide
      · exact isDigit_toDigits mem
    have writes := @writes_places signed padded digits places (by simp [padding]; omega)
    rw [padding, ofDigits_zeros_append, ofDigits_toDigits, ← padding] at writes
    convert writes using 1
    simp only [List.isEmpty_reverse]
    split <;> simp
/-! ## Rounding what is read -/

/-- Reading rounds the number that a text writes, once. The number of places only tells
ahead of time what is past the format's range on either side. -/
theorem magnitude_eq_round {digits : Nat} {exponent : Int} (some_digit : digits ≠ 0) (positive : 0 < den)
    (some_pattern : 0 < f.infinity) (greatest : f.middle (f.infinity - 1) < 10 ^ 400)
    (least : (1 : ℚ) < f.middle 0 * 10 ^ 400) (same : (num / den : ℚ) = digits * 10 ^ exponent) :
    magnitude f digits exponent = f.round num den := by
  obtain ⟨low, high⟩ := digitCount_spec some_digit
  have lower : (10 : ℚ) ^ ((digitCount digits : Int) - 1 + exponent) ≤ num / den := by
    rw [same, zpow_add₀ (by norm_num)]
    exact mul_le_mul_of_nonneg_right low (by positivity)
  have upper : (num / den : ℚ) < 10 ^ ((digitCount digits : Int) + exponent) := by
    rw [same, zpow_add₀ (by norm_num)]
    exact mul_lt_mul_of_pos_right high (by positivity)
  unfold magnitude
  rw [if_neg some_digit, ← digitCount]
  dsimp only
  split_ifs with past before up
  · have large : f.middle (f.infinity - 1) < num / den := by
      calc f.middle (f.infinity - 1) < 10 ^ (400 : Int) := by exact_mod_cast greatest
        _ ≤ 10 ^ ((digitCount digits : Int) - 1 + exponent) :=
            zpow_le_zpow_right₀ (by norm_num) (by omega)
        _ ≤ num / den := lower
    have := (lt_round_iff positive (by omega)).mpr (.inl large)
    have := round_le_infinity f num den
    omega
  · have small : (num / den : ℚ) < f.middle 0 := by
      calc (num / den : ℚ) < 10 ^ ((digitCount digits : Int) + exponent) := upper
        _ ≤ 10 ^ (-400 : Int) := zpow_le_zpow_right₀ (by norm_num) (by omega)
        _ < f.middle 0 := by
            rw [zpow_neg, inv_lt_iff_one_lt_mul₀ (by positivity)]
            exact_mod_cast least
    have := (lt_round_iff (f := f) positive some_pattern).not.mpr (by
      rintro (above | ⟨on, _⟩)
      · exact above.not_gt small
      · exact on.not_gt small)
    omega
  · obtain ⟨n, rfl⟩ := Int.eq_ofNat_of_zero_le up
    apply round_congr (by decide) positive
    simp [same]
  · obtain ⟨n, places⟩ := Int.eq_ofNat_of_zero_le (a := -exponent) (by omega)
    obtain rfl : exponent = -(n : Int) := by omega
    apply round_congr (Nat.pow_pos (by decide)) positive
    simp [same, div_eq_mul_inv]

end Numeral

namespace Single

open BinaryFormat Shortest Numeral

/-- The same number, or no number both. -/
def alike (x y : Single) : Prop := x = y ∨ x.isNaN = true ∧ y.isNaN = true

theorem ofMagnitude_magnitude (x : Single) : ofMagnitude x.signed x.magnitude = x := by
  obtain ⟨bits⟩ := x
  have bound := bits.toNat_lt
  simp only [ofMagnitude, signed, magnitude, decide_eq_true_eq, mk.injEq]
  apply UInt32.toNat_inj.mp
  split_ifs <;> simp only [Nat.toUInt32_eq, UInt32.toNat_ofNat'] <;> omega

/-- A sign before a text that starts with a digit is read as the sign of what is behind it. -/
private theorem ofText?_signed (signed : Bool) {cs : List Char}
    (digit : ∃ c rest, cs = c :: rest ∧ c.isDigit = true) :
    Numeral.ofText? ((if signed then ['-'] else []) ++ cs) = unsigned? signed cs := by
  obtain ⟨c, rest, rfl, digit⟩ := digit
  have range : '0'.val ≤ c.val ∧ c.val ≤ '9'.val := by simpa [Char.isDigit] using digit
  have lower : c.toLower = c := dif_neg fun upper =>
    absurd (UInt32.le_trans upper.1 range.2) (by decide)
  have differs {d : Char} (other : d.isDigit = false) : c ≠ d := by
    rintro rfl
    simp [digit] at other
  have split : splitSign ((if signed then ['-'] else []) ++ c :: rest) = (signed, c :: rest) := by
    cases signed with
    | true => rfl
    | false =>
      simp only [Bool.false_eq_true, ↓reduceIte, List.nil_append]
      unfold splitSign
      split
      · exact absurd (List.cons.inj ‹_›).1 (differs rfl)
      · exact absurd (List.cons.inj ‹_›).1 (differs rfl)
      · rfl
  simp [Numeral.ofText?, split, lower, differs (d := 'i') rfl, differs (d := 'n') rfl]

/-- The text of a magnitude. -/
private def bodyText (pattern : Nat) : String :=
  if pattern = single.infinity then "inf"
  else if pattern = 0 then "0"
  else positional (digits .single pattern).1 (digits .single pattern).2

/-- Behind its sign, the text of a magnitude writes it. -/
private theorem ofText?_bodyText (signed : Bool) {pattern : Nat} (some_number : pattern ≤ single.infinity) :
    ∃ n, Numeral.ofText? ((if signed then ['-'] else []) ++ (bodyText pattern).toList) = some n ∧
      n.pattern .single = (signed, pattern) := by
  unfold bodyText
  by_cases infinite : pattern = single.infinity
  · refine ⟨.infinity signed, ?_, by rw [Numeral.pattern, infinite]⟩
    rw [if_pos infinite]
    cases signed <;> decide +kernel
  by_cases zero : pattern = 0
  · refine ⟨.decimal signed 0 0, ?_, by rw [Numeral.pattern, zero, Numeral.magnitude, if_pos rfl]⟩
    rw [if_neg infinite, if_pos zero]
    cases signed <;> decide +kernel
  rw [if_neg infinite, if_neg zero]
  obtain ⟨pattern, rfl⟩ := Nat.exists_eq_succ_of_ne_zero zero
  have rounded := @round_digits .single pattern (by decide) (by decide) (by omega)
  generalize digits .single (pattern + 1) = shortest at *
  obtain ⟨n, e⟩ := shortest
  obtain ⟨digit, digits, exponent, read, value⟩ := writes_positional signed n e
  refine ⟨_, (ofText?_signed signed digit).trans read, ?_⟩
  have ratio : ((n * (powerOfTen e).1 : Nat) / (powerOfTen e).2 : ℚ) = digits * 10 ^ exponent := by
    rw [value, ← ratio_powerOfTen, ratio]
    push_cast
    ring
  have some_digit : digits ≠ 0 := by
    rintro rfl
    rw [Nat.cast_zero, zero_mul, div_eq_zero_iff] at ratio
    have nothing : n * (powerOfTen e).1 = 0 := by
      exact_mod_cast ratio.resolve_right (by exact_mod_cast (powerOfTen_pos e).2.ne')
    simp [nothing, BinaryFormat.round] at rounded
  have greatest : single.unpack (single.infinity - 1) = (16777215, 104) := by decide +kernel
  have least : single.unpack 0 = (0, -149) := by decide +kernel
  have wide : (10 : ℚ) ^ 50 ≤ 10 ^ 400 := pow_le_pow_right₀ (by norm_num) (by norm_num)
  calc Numeral.pattern .single (.decimal signed digits exponent)
      = (signed, single.round (n * (powerOfTen e).1) (powerOfTen e).2) :=
        congrArg (signed, ·) <| magnitude_eq_round some_digit (powerOfTen_pos e).2 (by decide)
          (lt_of_lt_of_le (by rw [middle, greatest]; norm_num) wide)
          (lt_of_lt_of_le (by rw [middle, least]; norm_num) (mul_le_mul_of_nonneg_left wide (by rw [middle, least]; norm_num)))
          ratio
    _ = (signed, pattern + 1) := by rw [rounded]

/-- Reading the text of a single gives that single. -/
theorem ofText?_text (x : Single) : ∃ y, Single.ofText? x.text = some y ∧ y.alike x := by
  by_cases none : single.infinity < x.magnitude
  · have text : x.text = "NaN" := if_pos none
    exact ⟨⟨0x7FC00000⟩, by rw [text]; decide +kernel, .inr ⟨by decide, by simpa [isNaN] using none⟩⟩
  · obtain ⟨n, read, pattern⟩ := ofText?_bodyText x.signed (Nat.not_lt.mp none)
    have text : x.text.toList = (if x.signed then ['-'] else []) ++ (bodyText x.magnitude).toList := by
      unfold Single.text Shortest.text bodyText
      rw [if_neg none]
      cases x.signed <;> simp
    refine ⟨x, ?_, .inl rfl⟩
    rw [Single.ofText?, text, read, Option.map_some, pattern]
    exact congrArg some x.ofMagnitude_magnitude

end Single

end Accessibility
