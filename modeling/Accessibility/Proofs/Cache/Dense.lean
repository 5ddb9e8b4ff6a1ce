import Mathlib.Data.List.Basic
import Accessibility.Proofs.Cache.Store

/-! What the dense grids of a cache hold, cell by cell. Rows are laid out only when they
are written to and lie by zone or by tap, and neither shows: a cell is accepted if its zone
and its tap are within the dimensions, and a write is seen in its own cell and in no other
(`storedDense_putDense`). -/
namespace Accessibility

/-- Whether the dimensions have a dense cell. -/
def CacheSpec.HasCell (spec : CacheSpec) (zone tap : UInt32) : Prop :=
  zone ≤ spec.maxZone ∧ tap ≤ spec.maxTap

instance (spec : CacheSpec) (zone tap : UInt32) : Decidable (spec.HasCell zone tap) :=
  inferInstanceAs (Decidable (_ ∧ _))

namespace DenseGrid

variable {rows width row column : Nat} {grid : DenseGrid} {value : Utilities}

/-- A grid with the given numbers of rows and columns. A row that has cells has one for
every column. -/
structure Shaped (rows width : Nat) (grid : DenseGrid) : Prop where
  tall : grid.rows.size = rows
  wide : grid.width = width
  cells : ∀ (row : Nat) (cells : Array (Option Utilities)), grid.rows[row]? = some (some cells) →
    cells.size = width

theorem shaped_empty (rows width : Nat) : (empty rows width).Shaped rows width where
  tall := Array.size_replicate ..
  wide := rfl
  cells row cells there := by
    simp only [empty, Array.getElem?_replicate] at there
    split at there <;> cases there

@[simp] theorem get?_empty (rows width row column : Nat) : (empty rows width).get? row column = none := by
  simp only [get?, empty, Array.getElem?_replicate]
  split
  next cells there => split at there <;> cases there
  next => rfl

theorem Shaped.inRange_iff (shaped : grid.Shaped rows width) :
    grid.inRange row column = true ↔ row < rows ∧ column < width := by
  simp [inRange, shaped.tall, shaped.wide]

/-- A row that is laid out has cells, and they are empty or as they were. -/
theorem Shaped.layOut (shaped : grid.Shaped rows width) (within : row < rows) :
    (grid.layOut row).Shaped rows width ∧
      (∃ cells, (grid.layOut row).rows[row]? = some (some cells)) ∧
      ∀ row' column', (grid.layOut row).get? row' column' = grid.get? row' column' := by
  have reach : row < grid.rows.size := shaped.tall.symm ▸ within
  have there := Array.getElem?_eq_getElem reach
  cases held : grid.rows[row] with
  | some cells =>
    rw [held] at there
    simp only [DenseGrid.layOut, there]
    exact ⟨shaped, ⟨cells, rfl⟩, fun _ _ => trivial⟩
  | none =>
    rw [held] at there
    simp only [DenseGrid.layOut, there]
    refine ⟨⟨(Array.size_setIfInBounds ..).trans shaped.tall, shaped.wide, ?_⟩, ?_, ?_⟩
    · intro row' cells there'
      rw [Array.getElem?_setIfInBounds] at there'
      split at there'
      · cases there'
        exact (Array.size_replicate ..).trans shaped.wide
      · exact shaped.cells row' cells there'
    · rw [Array.getElem?_setIfInBounds_self_of_lt reach]
      exact ⟨_, rfl⟩
    · intro row' column'
      by_cases same : row = row'
      · subst same
        simp only [get?, there, Array.getElem?_setIfInBounds_self_of_lt reach,
          Array.getElem?_replicate]
        split <;> rfl
      · simp only [get?, Array.getElem?_setIfInBounds_ne same]

/-- A write gives back what the cell then holds, and is seen in no other cell. -/
theorem Shaped.put (shaped : grid.Shaped rows width) (within : row < rows) (inside : column < width)
    (value : Utilities) :
    (grid.put row column value).2.Shaped rows width ∧
      (grid.put row column value).1 = some ((grid.get? row column).getD value) ∧
      ∀ row' column', (grid.put row column value).2.get? row' column' =
        if row' = row ∧ column' = column then some ((grid.get? row column).getD value)
        else grid.get? row' column' := by
  obtain ⟨laid, ⟨cells, there⟩, same⟩ := shaped.layOut within
  have reach : row < (grid.layOut row).rows.size := laid.tall.symm ▸ within
  have long := laid.cells row cells there
  have inCells : column < cells.size := long.symm ▸ inside
  have cell := Array.getElem?_eq_getElem inCells
  have held : grid.get? row column = cells[column] := by
    rw [← same, get?, there]
    simp only [cell, Option.join_some]
  cases content : cells[column] with
  | some stored =>
    rw [content] at cell held
    simp only [DenseGrid.put, there, cell, held, Option.getD_some]
    refine ⟨laid, trivial, fun row' column' => ?_⟩
    rw [same]
    split
    next here => rw [here.1, here.2, held]
    next => rfl
  | none =>
    rw [content] at cell held
    simp only [DenseGrid.put, there, cell, held, Option.getD_none]
    refine ⟨⟨(Array.size_setIfInBounds ..).trans laid.tall, laid.wide, ?_⟩, trivial, ?_⟩
    · intro row' cells' there'
      rw [Array.getElem?_setIfInBounds] at there'
      split at there'
      · simp only [Option.some.injEq] at there'
        rw [← there']
        exact (Array.size_setIfInBounds ..).trans long
      · exact laid.cells row' cells' there'
    · intro row' column'
      by_cases here : row = row'
      · subst here
        rw [← same row column']
        simp only [get?, Array.getElem?_setIfInBounds_self_of_lt reach, there, true_and]
        by_cases also : column = column'
        · subst also
          simp [Array.getElem?_setIfInBounds_self_of_lt inCells]
        · rw [Array.getElem?_setIfInBounds_ne also, if_neg (Ne.symm also)]
      · rw [if_neg fun both => here both.1.symm, ← same]
        simp only [get?, Array.getElem?_setIfInBounds_ne here]

end DenseGrid

namespace DenseGrids

@[simp] theorem grid_setGrid (grids : DenseGrids) (mode mode' : AccessMode) (leg leg' : Leg)
    (grid : DenseGrid) : (grids.setGrid mode leg grid).grid mode' leg' =
      if mode' = mode ∧ leg' = leg then grid else grids.grid mode' leg' := by
  cases mode <;> cases mode' <;> cases leg <;> cases leg' <;> rfl

end DenseGrids

namespace Leg

/-- Numbers of rows and columns of a leg's grids. -/
def extent : Leg → CacheSpec → Nat × Nat
  | access, spec => (spec.maxZone.toNat + 1, spec.maxTap.toNat + 1)
  | egress, spec => (spec.maxTap.toNat + 1, spec.maxZone.toNat + 1)

variable {leg : Leg} {zone zone' tap tap' : UInt32}

/-- A cell lies in its grid if its zone and its tap are within the dimensions. -/
theorem position_within (leg : Leg) (spec : CacheSpec) (zone tap : UInt32) :
    ((leg.position zone tap).1 < (leg.extent spec).1 ∧ (leg.position zone tap).2 < (leg.extent spec).2) ↔
      spec.HasCell zone tap := by
  cases leg
  · exact and_congr Nat.lt_succ_iff Nat.lt_succ_iff
  · exact and_comm.trans (and_congr Nat.lt_succ_iff Nat.lt_succ_iff)

/-- Cells of one leg are told apart by their rows and columns. -/
theorem position_inj : ((leg.position zone' tap').1 = (leg.position zone tap).1 ∧
    (leg.position zone' tap').2 = (leg.position zone tap).2) ↔ zone' = zone ∧ tap' = tap := by
  cases leg
  · exact and_congr UInt32.toNat_inj UInt32.toNat_inj
  · exact and_comm.trans (and_congr UInt32.toNat_inj UInt32.toNat_inj)

end Leg

namespace UtilityCache

variable {spec : CacheSpec} {cache : UtilityCache} {value : Utilities} {mode : AccessMode} {leg : Leg}
  {zone tap : UInt32}

/-- All grids of the cache have the shape that its dimensions give them. -/
structure Gridded (spec : CacheSpec) (cache : UtilityCache) : Prop where
  dimensions : cache.spec = spec
  shaped : ∀ mode leg, (cache.dense.grid mode leg).Shaped (leg.extent spec).1 (leg.extent spec).2

theorem gridded_empty (spec : CacheSpec) : (empty spec).Gridded spec where
  dimensions := rfl
  shaped mode leg := by cases mode <;> cases leg <;> exact DenseGrid.shaped_empty ..

/-- What is stored in a cell. -/
def storedDense (cache : UtilityCache) : DenseCell → Option Utilities := fun (mode, leg, zone, tap) =>
  (cache.dense.grid mode leg).get? (leg.position zone tap).1 (leg.position zone tap).2

@[simp] theorem storedDense_empty (spec : CacheSpec) (cell : DenseCell) :
    (empty spec).storedDense cell = none := by
  obtain ⟨mode, leg, zone, tap⟩ := cell
  cases mode <;> cases leg <;> exact DenseGrid.get?_empty ..

/-- A cell is accepted if its zone and its tap are within the dimensions. -/
theorem densePosition_of_within (gridded : cache.Gridded spec)
    (within : spec.HasCell zone tap) :
    cache.densePosition mode leg zone tap = .ok (leg.position zone tap) := by
  have reach := (gridded.shaped mode leg).inRange_iff.mpr ((leg.position_within spec zone tap).mpr within)
  simp only [densePosition, reach, ↓reduceIte]

theorem densePosition_of_outside (gridded : cache.Gridded spec)
    (outside : ¬ spec.HasCell zone tap) :
    cache.densePosition mode leg zone tap =
      .error (Cache.Refusal.outsideDense mode leg zone tap spec).fault := by
  have unreached := mt (gridded.shaped mode leg).inRange_iff.mp
    (mt (leg.position_within spec zone tap).mp outside)
  obtain rfl := gridded.dimensions
  simp only [densePosition, unreached]
  rfl

theorem getDense_of_within (gridded : cache.Gridded spec)
    (within : spec.HasCell zone tap) :
    cache.getDense mode leg zone tap = .ok (cache.storedDense (mode, leg, zone, tap)) := by
  simp only [getDense, densePosition_of_within gridded within, bind, Except.bind]
  rfl

theorem getDense_of_outside (gridded : cache.Gridded spec)
    (outside : ¬ spec.HasCell zone tap) :
    cache.getDense mode leg zone tap =
      .error (Cache.Refusal.outsideDense mode leg zone tap spec).fault := by
  simp only [getDense, densePosition_of_outside gridded outside, bind, Except.bind]

theorem putDense_of_outside (gridded : cache.Gridded spec)
    (outside : ¬ spec.HasCell zone tap) :
    cache.putDense mode leg zone tap value =
      (.error (Cache.Refusal.outsideDense mode leg zone tap spec).fault, cache) := by
  simp only [putDense, densePosition_of_outside gridded outside]

/-- A write touches one grid only, and gives back what its cell then holds. -/
theorem putDense_of_within (gridded : cache.Gridded spec)
    (within : spec.HasCell zone tap) :
    cache.putDense mode leg zone tap value =
      (.ok ((cache.storedDense (mode, leg, zone, tap)).getD value),
        { cache with dense := cache.dense.setGrid mode leg ((cache.dense.grid mode leg).put
            (leg.position zone tap).1 (leg.position zone tap).2 value).2 }) := by
  obtain ⟨row, column⟩ := (leg.position_within spec zone tap).mpr within
  have visible := ((gridded.shaped mode leg).put row column value).2.1
  simp only [putDense, densePosition_of_within gridded within]
  split
  next found grid came =>
    rw [came] at visible ⊢
    cases visible
    rfl
  next grid came =>
    rw [came] at visible
    cases visible

/-- A write is seen in its own cell and in no other, and what was there before it
stays. -/
theorem storedDense_putDense (gridded : cache.Gridded spec) (mode : AccessMode) (leg : Leg)
    (within : spec.HasCell zone tap) (value : Utilities) (cell : DenseCell) :
    (cache.putDense mode leg zone tap value).2.storedDense cell =
      if cell = (mode, leg, zone, tap) then some ((cache.storedDense (mode, leg, zone, tap)).getD value)
      else cache.storedDense cell := by
  obtain ⟨row, column⟩ := (leg.position_within spec zone tap).mpr within
  have seen := ((gridded.shaped mode leg).put row column value).2.2
  obtain ⟨mode', leg', zone', tap'⟩ := cell
  rw [putDense_of_within gridded within]
  simp only [storedDense, DenseGrids.grid_setGrid]
  by_cases same : mode' = mode ∧ leg' = leg
  · obtain ⟨rfl, rfl⟩ := same
    simp only [and_self, ↓reduceIte, seen, Leg.position_inj, Prod.mk.injEq, true_and]
  · have apart : ¬ (mode', leg', zone', tap') = (mode, leg, zone, tap) := by
      rintro ⟨rfl, rfl, _, _⟩
      exact same ⟨rfl, rfl⟩
    simp only [same, ↓reduceIte, apart]

theorem gridded_putDense (gridded : cache.Gridded spec) (mode : AccessMode) (leg : Leg)
    (within : spec.HasCell zone tap) (value : Utilities) :
    (cache.putDense mode leg zone tap value).2.Gridded spec := by
  obtain ⟨row, column⟩ := (leg.position_within spec zone tap).mpr within
  have shaped := ((gridded.shaped mode leg).put row column value).1
  rw [putDense_of_within gridded within]
  refine ⟨gridded.dimensions, fun mode' leg' => ?_⟩
  rw [DenseGrids.grid_setGrid]
  split
  next same =>
    obtain ⟨rfl, rfl⟩ := same
    exact shaped
  next => exact gridded.shaped mode' leg'

/-- A write to a cell changes nothing but the grids. -/
theorem putDense_frame (cache : UtilityCache) (mode : AccessMode) (leg : Leg) (zone tap : UInt32)
    (value : Utilities) : ∃ dense, (cache.putDense mode leg zone tap value).2 = { cache with dense } := by
  unfold putDense
  repeat' split
  all_goals exact ⟨_, rfl⟩

end UtilityCache

end Accessibility
