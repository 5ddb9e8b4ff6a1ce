import Mathlib.Data.List.Nodup
import Accessibility.Proofs.SizeTerm.Weights

/-! Weights that are stored one after the other in an empty table. They are stored if each of them fits, and
otherwise the first that does not is refused (`setAll_eq_ok_iff`, `setAll_eq_error_iff`). Weights with cells of
their own do not disturb each other: each is found in its cell, and the cells that none was for hold zeros
(`get_filled_of_mem`, `get_filled_of_forall`). -/
namespace Accessibility

/-- A number that a table takes: finite, and not negative. -/
def Double.IsWeight (value : Double) : Prop := value.isFinite = true ∧ value.isNegative = false

instance (value : Double) : Decidable value.IsWeight :=
  inferInstanceAs (Decidable (value.isFinite = true ∧ value.isNegative = false))

namespace SizeTermTable

variable {table after : SizeTermTable} {segmentNames : List String} {maxZone : UInt32} {calls : List Call}
  {call : Call} {zone : UInt32} {segment : Nat} {fault : Fault}

theorem set_of_refused (refused : call.Refused table.segmentNames table.maxZone fault) :
    table.set call.zone call.segment call.value = .error fault := by
  unfold set
  cases refused with
  | beyondTable beyond =>
    rw [if_pos beyond]
    rfl
  | noSegment within beyond =>
    rw [if_neg (UInt32.not_lt.mpr within), List.getElem?_eq_none beyond]
    rfl
  | badWeight within named bad =>
    have bad : (!call.value.isFinite || call.value.isNegative) = true := by simpa using bad
    rw [if_neg (UInt32.not_lt.mpr within), named]
    exact if_pos bad

theorem set_eq_error_iff : table.set call.zone call.segment call.value = .error fault ↔
    call.Refused table.segmentNames table.maxZone fault := by
  refine ⟨fun failed => ?_, set_of_refused⟩
  obtain ⟨-, after, stored⟩ | ⟨-, other, error, refused⟩ := set_cases table call
  · cases stored.symm.trans failed
  · cases error.symm.trans failed
    exact refused

/-- Inside a table a number fits if it is a weight. -/
theorem Call.fits_iff (within : call.zone ≤ maxZone) (inside : call.segment < segmentNames.length) :
    call.Fits segmentNames maxZone ↔ call.value.IsWeight :=
  ⟨fun fits => ⟨fits.finite, fits.natural⟩, fun ⟨finite, natural⟩ => ⟨within, inside, finite, natural⟩⟩

/-- Inside a table a number is refused if it is no weight. -/
theorem Call.refused_iff (within : call.zone ≤ maxZone) (inside : call.segment < segmentNames.length) :
    call.Refused segmentNames maxZone fault ↔
      ¬ call.value.IsWeight ∧ ∃ name, segmentNames[call.segment]? = some name ∧
        fault = .computation call.zone s!"size term for segment '{name}' is {call.value.text}" := by
  constructor
  · rintro (beyond | ⟨-, beyond⟩ | ⟨-, named, bad⟩)
    · exact absurd beyond (UInt32.not_lt.mpr within)
    · exact absurd inside (Nat.not_lt.mpr beyond)
    · refine ⟨fun ⟨finite, natural⟩ => ?_, _, named, rfl⟩
      simp [finite, natural] at bad
  · rintro ⟨bad, name, named, rfl⟩
    refine .badWeight within named ?_
    by_contra good
    simp only [not_or, Bool.not_eq_false, Bool.not_eq_true] at good
    exact bad good

/-- Stores weights one after the other. -/
def setAll (table : SizeTermTable) (calls : List Call) : Outcome SizeTermTable :=
  calls.foldlM (fun table call => table.set call.zone call.segment call.value) table

theorem setAll_cons (table : SizeTermTable) (call : Call) (calls : List Call) :
    table.setAll (call :: calls) =
      table.set call.zone call.segment call.value >>= fun after => after.setAll calls :=
  List.foldlM_cons

theorem setAll_append (table : SizeTermTable) (calls later : List Call) :
    table.setAll (calls ++ later) = table.setAll calls >>= fun after => after.setAll later :=
  List.foldlM_append

theorem setAll_cons_of_fits (fits : call.Fits table.segmentNames table.maxZone) (calls : List Call) :
    table.setAll (call :: calls) = (table.call call).setAll calls := by
  rw [setAll_cons, call_of_fits fits]
  rfl

/-- Weights are stored if all of them fit. -/
theorem setAll_eq_ok_iff : table.setAll calls = .ok after ↔
    (∀ call ∈ calls, call.Fits table.segmentNames table.maxZone) ∧ after = calls.foldl SizeTermTable.call table := by
  induction calls generalizing table with
  | nil => exact ⟨fun done => ⟨nofun, (Except.ok.inj done).symm⟩, fun done => congrArg Except.ok done.2.symm⟩
  | cons call calls ih =>
    rw [List.forall_mem_cons]
    by_cases fits : call.Fits table.segmentNames table.maxZone
    · obtain ⟨names, bound⟩ := bounds_call table call
      rw [setAll_cons_of_fits fits, ih, names, bound, and_iff_right fits]
      rfl
    · obtain ⟨stored, -⟩ | ⟨-, fault, error, -⟩ := set_cases table call
      · exact absurd stored fits
      · rw [setAll_cons, error]
        exact ⟨nofun, fun done => absurd done.1.1 fits⟩

/-- Weights that are not all stored fail at the first that does not fit. -/
theorem setAll_eq_error_iff : table.setAll calls = .error fault ↔
    ∃ front call behind, calls = front ++ call :: behind ∧
      (∀ earlier ∈ front, earlier.Fits table.segmentNames table.maxZone) ∧
        call.Refused table.segmentNames table.maxZone fault := by
  induction calls generalizing table with
  | nil =>
    refine ⟨nofun, ?_⟩
    rintro ⟨front, call, behind, none, -⟩
    exact absurd none (by simp)
  | cons first rest ih =>
    by_cases fits : first.Fits table.segmentNames table.maxZone
    · obtain ⟨names, bound⟩ := bounds_call table first
      rw [setAll_cons_of_fits fits, ih, names, bound]
      constructor
      · rintro ⟨front, call, behind, rfl, before, refused⟩
        exact ⟨first :: front, call, behind, rfl, List.forall_mem_cons.mpr ⟨fits, before⟩, refused⟩
      · rintro ⟨front, call, behind, split, before, refused⟩
        cases front with
        | nil =>
          obtain ⟨rfl, -⟩ := List.cons.inj split
          rw [← set_eq_error_iff, call_of_fits fits] at refused
          cases refused
        | cons _ front =>
          obtain ⟨rfl, rfl⟩ := List.cons.inj split
          exact ⟨front, call, behind, rfl, (List.forall_mem_cons.mp before).2, refused⟩
    · obtain ⟨stored, -⟩ | ⟨-, other, error, refused⟩ := set_cases table first
      · exact absurd stored fits
      · rw [setAll_cons, error]
        constructor
        · rintro ⟨⟩
          exact ⟨[], first, rest, rfl, nofun, refused⟩
        · rintro ⟨front, call, behind, split, before, refused'⟩
          cases front with
          | nil =>
            obtain ⟨rfl, -⟩ := List.cons.inj split
            exact error.symm.trans (set_eq_error_iff.mpr refused')
          | cons _ front =>
            obtain ⟨rfl, -⟩ := List.cons.inj split
            exact absurd (before _ List.mem_cons_self) fits

/-! ## What is found -/

/-- The cell that a weight is for. -/
def Call.cell (call : Call) : UInt32 × Nat := (call.zone, call.segment)

/-- A weight with a cell of its own is found there. -/
theorem get_filled_of_mem (distinct : (calls.map Call.cell).Nodup) (member : call ∈ calls)
    (fits : call.Fits segmentNames maxZone) :
    (filled segmentNames maxZone calls).get call.zone call.segment = .ok call.value := by
  rw [(flagged_filled ..).get_eq, weight_filled]
  obtain ⟨last, there, ⟨-, zone, segment⟩, same⟩ | ⟨none, -⟩ :=
    lastWeight_cases segmentNames maxZone calls call.zone call.segment
  · have own : last.cell = call.cell := Prod.ext zone segment
    rw [same, List.inj_on_of_nodup_map distinct there member own]
  · exact absurd ⟨fits, rfl, rfl⟩ (none call member)

/-- A cell that no weight is for holds a zero. -/
theorem get_filled_of_forall (elsewhere : ∀ call ∈ calls, call.cell ≠ (zone, segment)) :
    (filled segmentNames maxZone calls).get zone segment = .ok .zero := by
  rw [(flagged_filled ..).get_eq, weight_filled]
  obtain ⟨call, there, ⟨-, zone, segment⟩, -⟩ | ⟨-, zero⟩ := lastWeight_cases segmentNames maxZone calls zone segment
  · exact absurd (Prod.ext zone segment) (elsewhere call there)
  · rw [zero]

/-- A row is what its cells hold. -/
theorem Flagged.row_of_get (flagged : table.Flagged) (within : zone ≤ table.maxZone) {values : List Double}
    (wide : values.length = table.width)
    (each : ∀ segment value, values[segment]? = some value → table.get zone segment = .ok value) :
    table.row zone = .ok values := by
  rw [flagged.row_eq, if_pos within]
  refine congrArg Except.ok (List.ext_getElem (by simp [wide]) fun segment _ inside => ?_)
  have got := each segment _ (List.getElem?_eq_getElem inside)
  rw [flagged.get_eq] at got
  simpa using Except.ok.inj got

end SizeTermTable

end Accessibility
