import Mathlib.Data.Nat.Bitwise
import Mathlib.Order.Defs.LinearOrder
import Accessibility.SizeTerm.Table

/-! What the flags of a size term table say. Whatever weights are stored and refused, a zone that has
no flag has no weight above zero (`Flagged`), and a product with such a weight is not above zero
either, whatever the other factor is. -/
namespace Accessibility

namespace Double

variable {x : Double}

theorem isNaN_of_isFinite (finite : x.isFinite = true) : x.isNaN = false := by
  simp only [isFinite, isNaN, decide_eq_true_eq, decide_eq_false_iff_not] at finite ⊢
  omega

/-- A finite number on neither side of zero is one. -/
theorem isZero_of_isFinite (finite : x.isFinite = true) (low : x.isNegative = false)
    (high : x.isPositive = false) : x.isZero = true := by
  simp only [isNegative, isPositive, isNaN_of_isFinite finite, Bool.not_false, Bool.true_and,
    decide_eq_false_iff_not] at low high
  simp only [isZero, decide_eq_true_eq]
  rcases Bool.eq_false_or_eq_true x.signed with sign | sign
  all_goals
    simp only [rank, sign, Bool.false_eq_true, ↓reduceIte] at low high
    omega

theorem isPositive_of_isNaN (nan : x.isNaN = true) : x.isPositive = false := by
  rw [isPositive, nan]
  rfl

theorem isPositive_of_isZero (zero : x.isZero = true) : x.isPositive = false := by
  simp only [isZero, decide_eq_true_eq] at zero
  simp [isPositive, rank, zero]

theorem isNaN_quiet (nan : x.isNaN = true) : x.quiet.isNaN = true := by
  have kept : x.quiet.magnitude = x.magnitude ||| 0x8000000000000 := by
    simp only [magnitude, quiet, UInt64.toNat_or, UInt64.toNat_ofNat]
    exact Nat.or_mod_two_pow (n := 63)
  have grown : x.magnitude ≤ x.quiet.magnitude := kept ▸ Nat.left_le_or
  simp only [isNaN, decide_eq_true_eq] at nan ⊢
  omega

theorem isZero_nearest_zero (signed : Bool) (den : Nat) (e : Int) : (nearest signed 0 den e).isZero = true := by
  have none : (BinaryFormat.scaled 0 den e).1 = 0 := by
    unfold BinaryFormat.scaled
    split
    · exact Nat.zero_mul _
    · rfl
  simp only [nearest, none, BinaryFormat.round, ↓reduceIte]
  cases signed <;> rfl

/-- A product with a zero is no number above zero. -/
theorem isPositive_zero_mul (zero : x.isZero = true) (y : Double) : (x * y).isPositive = false := by
  have none : x.magnitude = 0 := by simpa [isZero] using zero
  have finite : x.isFinite = true := by
    rw [isFinite, none]
    rfl
  have nothing : x.unpack.1 = 0 := by
    rw [unpack, none]
    rfl
  show (mul x y).isPositive = false
  unfold mul
  simp only [isNaN_of_isFinite finite, finite, zero, nothing, Nat.zero_mul]
  split
  next nan => exact absurd nan Bool.false_ne_true
  split
  next nan => exact isPositive_of_isNaN (isNaN_quiet nan)
  split
  · rw [Bool.true_or, if_pos rfl]
    exact isPositive_of_isNaN rfl
  · exact isPositive_of_isZero (isZero_nearest_zero ..)

end Double

namespace SizeTermTable

variable {table after : SizeTermTable} {zone : UInt32} {segment : Nat} {value : Double}

/-- A weight is stored in its cell, and may set its zone's flag. -/
theorem set_eq_ok (stored : table.set zone segment value = .ok after) :
    (zone ≤ table.maxZone ∧ segment < table.width) ∧
      (value.isFinite = true ∧ value.isNegative = false) ∧
      after = { table with
        values := table.values.setIfInBounds (zone.toNat * table.width + segment) value
        flags :=
          if value.isPositive then table.flags.setIfInBounds zone.toNat true
          else table.flags } := by
  unfold set at stored
  split at stored
  next => cases stored
  next within =>
    split at stored
    next => cases stored
    next name named =>
      split at stored
      next => cases stored
      next sound =>
        have inside := (List.getElem?_eq_some_iff.mp named).1
        simp only [Bool.or_eq_true, Bool.not_eq_true', not_or, Bool.not_eq_true,
          Bool.not_eq_false] at sound
        exact ⟨⟨UInt32.not_lt.mp within, inside⟩, sound, (Except.ok.inj stored).symm⟩

/-- Cells of different rows are different. -/
theorem cell_ne {width row other column column' : Nat} (apart : row ≠ other) (inside : column < width)
    (inside' : column' < width) : row * width + column ≠ other * width + column' := by
  intro same
  have some_column : 0 < width := Nat.zero_lt_of_lt inside
  have rows := congrArg (· / width) same
  simp only [Nat.mul_comm _ width, Nat.mul_add_div some_column, Nat.div_eq_of_lt inside,
    Nat.div_eq_of_lt inside', Nat.add_zero] at rows
  exact apart rows

/-- A table with all its cells and flags, in which the zones without a flag have no weight. -/
structure Flagged (table : SizeTermTable) : Prop where
  cells : table.values.size = (table.maxZone.toNat + 1) * table.width
  flags : table.flags.size = table.maxZone.toNat + 1
  bare : ∀ zone ≤ table.maxZone, table.hasSizeTerm zone = false → ∀ segment < table.width,
    ∀ weight, table.values[zone.toNat * table.width + segment]? = some weight → weight.isZero = true

theorem flagged_zeros (segmentNames : List String) (maxZone : UInt32) :
    (zeros segmentNames maxZone).Flagged := by
  refine ⟨Array.size_replicate, Array.size_replicate, fun zone _ _ segment _ weight there => ?_⟩
  have member := Array.mem_of_getElem? there
  rw [(Array.mem_replicate.mp member).2]
  rfl

/-- A weight above zero sets the flag of its zone, and the other flags stay. -/
theorem hasSizeTerm_set (flagged : table.Flagged) (stored : table.set zone segment value = .ok after)
    (other : UInt32) :
    after.hasSizeTerm other = (table.hasSizeTerm other || (decide (other = zone) && value.isPositive)) := by
  obtain ⟨⟨within, _⟩, _, rfl⟩ := set_eq_ok stored
  have there : zone.toNat < table.flags.size := by
    rw [flagged.flags]
    exact Nat.lt_succ_of_le within
  unfold hasSizeTerm
  dsimp only
  cases value.isPositive with
  | false => simp
  | true =>
    by_cases same : other = zone
    · simp [same, there]
    · have apart : zone.toNat ≠ other.toNat := fun equal => same (UInt32.toNat_inj.mp equal.symm)
      simp [same, Array.getElem?_setIfInBounds_ne apart]

/-- Stored weights keep the flags right. -/
theorem Flagged.set (flagged : table.Flagged) (stored : table.set zone segment value = .ok after) :
    after.Flagged := by
  have flags := hasSizeTerm_set flagged stored
  obtain ⟨⟨within, inside⟩, ⟨finite, low⟩, rfl⟩ := set_eq_ok stored
  refine ⟨(Array.size_setIfInBounds ..).trans flagged.cells, ?_, fun other within' unflagged segment' inside'
    weight there => ?_⟩
  · dsimp only
    split
    · exact (Array.size_setIfInBounds ..).trans flagged.flags
    · exact flagged.flags
  · rw [flags, Bool.or_eq_false_iff, Bool.and_eq_false_iff, decide_eq_false_iff_not] at unflagged
    obtain ⟨bare, none⟩ := unflagged
    have before := flagged.bare other within' bare segment' inside'
    have there : (table.values.setIfInBounds (zone.toNat * table.width + segment) value)[
      other.toNat * table.width + segment']? = some weight := there
    by_cases cell : zone.toNat * table.width + segment = other.toNat * table.width + segment'
    · have same : other = zone := by
        by_contra apart
        exact cell_ne (fun equal => apart (UInt32.toNat_inj.mp equal.symm)) inside inside' cell
      have nothing := none.resolve_left (not_not_intro same)
      rw [← cell, Array.getElem?_setIfInBounds_self] at there
      split at there
      next =>
        cases there
        exact Double.isZero_of_isFinite finite low nothing
      next => cases there
    · rw [Array.getElem?_setIfInBounds_ne cell] at there
      exact before weight there

/-- A call that stores a weight. -/
structure Call where
  zone : UInt32
  segment : Nat
  value : Double

/-- The table after a call. A weight that is refused changes nothing. -/
def call (table : SizeTermTable) (call : Call) : SizeTermTable :=
  match table.set call.zone call.segment call.value with
  | .ok after => after
  | .error _ => table

/-- The table that calls leave behind. -/
def filled (segmentNames : List String) (maxZone : UInt32) (calls : List Call) : SizeTermTable :=
  calls.foldl call (zeros segmentNames maxZone)

theorem Flagged.call (flagged : table.Flagged) (call : Call) : (table.call call).Flagged := by
  unfold SizeTermTable.call
  split
  next stored => exact flagged.set stored
  next => exact flagged

/-- Whatever has been stored, the flags are right. -/
theorem flagged_filled (segmentNames : List String) (maxZone : UInt32) (calls : List Call) :
    (filled segmentNames maxZone calls).Flagged := by
  have begun := flagged_zeros segmentNames maxZone
  unfold filled
  generalize zeros segmentNames maxZone = table at begun
  induction calls generalizing table with
  | nil => exact begun
  | cons first rest ih => exact ih (call table first) (begun.call first)

/-- The row of a zone without a flag holds nothing but zeros. -/
theorem Flagged.row (flagged : table.Flagged) (unflagged : table.hasSizeTerm zone = false) :
    ∃ weights, table.row zone = .ok weights ∧ ∀ weight ∈ weights, weight.isZero = true := by
  unfold SizeTermTable.row
  split
  next => exact ⟨[], rfl, nofun⟩
  next within =>
    have within := UInt32.not_lt.mp within
    have reach : zone.toNat * table.width + table.width ≤ table.values.size := by
      rw [flagged.cells, ← Nat.succ_mul]
      exact Nat.mul_le_mul_right _ (Nat.succ_le_succ within)
    rw [if_pos reach]
    refine ⟨_, rfl, fun weight member => ?_⟩
    obtain ⟨column, inside, rfl⟩ := Array.mem_extract_iff_getElem.mp (Array.mem_toList_iff.mp member)
    have inside' : column < table.width := by omega
    exact flagged.bare zone within unflagged column inside' _ (Array.getElem?_eq_getElem _)

/-- A zone without a flag adds nothing above zero to a sum, whatever it is weighted by. -/
theorem Flagged.get (flagged : table.Flagged) (unflagged : table.hasSizeTerm zone = false) (segment : Nat) :
    ∃ size, table.get zone segment = .ok size ∧ size.isZero = true ∧
      ∀ factor, (size * factor).isPositive = false := by
  obtain ⟨weights, row, zeros⟩ := flagged.row unflagged
  have zero : (weights[segment]?.getD .zero).isZero = true := by
    cases there : weights[segment]? with
    | none => rfl
    | some weight => exact zeros weight (List.mem_of_getElem? there)
  refine ⟨weights[segment]?.getD .zero, ?_, zero, Double.isPositive_zero_mul zero⟩
  rw [SizeTermTable.get, row]
  rfl

end SizeTermTable

end Accessibility
