import Accessibility.Proofs.Evaluation.SchoolTerms
import Accessibility.Proofs.Number.Word

/-! Where the factors of school segments are kept and looked up. They lie in one flat row of cells, zone after
zone, and each zone's are written into its own stretch of it (`getElem?_writeFactors_of_mem`), so the cells are as
many as the table has ids and segments (`shaped_of_schoolFactors`). A lookup goes by the place of the cell and not
by the segment: one with a segment that there is reads the row of its zone, and one with a greater segment reads on
into the rows behind (`lookups_of_schoolFactors`). -/
namespace Accessibility.Setup

variable {sizeTerms : SizeTermTable} {school : SchoolSegments} {zones : ZoneSystem} {enrollment : String}
  {factors : SegmentFactors} {cells after : Array Double} {start segment place : Nat} {value : Double}
  {weights : List (Nat × Double)}

/-! ## Writing -/

theorem writeFactors_cons (cells : Array Double) (start : Nat) (first : Nat × Double) (rest : List (Nat × Double)) :
    writeFactors cells start (first :: rest) =
      writeFactors (cells.setIfInBounds (start + first.1) first.2) start rest := rfl

@[simp] theorem size_writeFactors (cells : Array Double) (start : Nat) (weights : List (Nat × Double)) :
    (writeFactors cells start weights).size = cells.size := by
  induction weights generalizing cells with
  | nil => rfl
  | cons first rest ih => rw [writeFactors_cons, ih, Array.size_setIfInBounds]

/-- A cell that no factor is for stays as it is. -/
theorem getElem?_writeFactors_of_forall (elsewhere : ∀ weight ∈ weights, start + weight.1 ≠ place) :
    (writeFactors cells start weights)[place]? = cells[place]? := by
  induction weights generalizing cells with
  | nil => rfl
  | cons first rest ih =>
    obtain ⟨other, others⟩ := List.forall_mem_cons.mp elsewhere
    rw [writeFactors_cons, ih others, Array.getElem?_setIfInBounds_ne other]

/-- The factor of a segment is in its cell, if no other is for it. -/
theorem getElem?_writeFactors_of_mem (distinct : (weights.map Prod.fst).Nodup)
    (member : (segment, value) ∈ weights) (inside : start + segment < cells.size) :
    (writeFactors cells start weights)[start + segment]? = some value := by
  induction weights generalizing cells with
  | nil => cases member
  | cons first rest ih =>
    obtain ⟨fresh, distinct⟩ := List.nodup_cons.mp distinct
    rw [writeFactors_cons]
    rcases List.mem_cons.mp member with rfl | member
    · -- The segment does not come again, so the cell is not written a second time.
      rw [getElem?_writeFactors_of_forall, Array.getElem?_setIfInBounds_self_of_lt inside]
      intro weight later same
      exact fresh (List.mem_map.mpr ⟨weight, later, Nat.add_left_cancel same⟩)
    · exact ih distinct member (by rwa [Array.size_setIfInBounds])

theorem placeFactors_eq_ok {index : Nat} {zone : Zone}
    (placed : placeFactors sizeTerms school index cells zone = .ok after) :
    zone.id ≤ sizeTerms.maxZone ∧ ∃ weights, zoneFactors sizeTerms school index zone = .ok weights ∧
      (∀ weight ∈ weights, weight.1 < sizeTerms.width) ∧
        after = writeFactors cells (zone.id.toNat * sizeTerms.width) weights := by
  unfold placeFactors at placed
  split at placed
  next => cases placed
  next within =>
    obtain ⟨weights, given, placed⟩ := bind_eq_ok placed
    split at placed
    next => cases placed
    next inside =>
      refine ⟨UInt32.not_lt.mp within, weights, given, fun weight member => ?_, (Except.ok.inj placed).symm⟩
      simp only [List.any_eq_true, decide_eq_true_eq, not_exists, not_and, Nat.not_le] at inside
      exact inside weight member

theorem size_of_foldlM {index : Nat} {listed : List Zone}
    (placed : listed.foldlM (placeFactors sizeTerms school index) cells = .ok after) : after.size = cells.size := by
  induction listed generalizing cells with
  | nil => rw [← Except.ok.inj placed]
  | cons zone rest ih =>
    rw [List.foldlM_cons] at placed
    obtain ⟨next, first, others⟩ := bind_eq_ok placed
    obtain ⟨-, weights, -, -, rfl⟩ := placeFactors_eq_ok first
    rw [ih others, size_writeFactors]

/-- Factors with a cell for each id and segment of a table. -/
structure Shaped (sizeTerms : SizeTermTable) (factors : SegmentFactors) : Prop where
  segments : factors.segments = sizeTerms.width
  size : factors.values.size = (sizeTerms.maxZone.toNat + 1) * sizeTerms.width

theorem shaped_of_schoolFactors (done : schoolFactors sizeTerms school zones enrollment = .ok factors) :
    Shaped sizeTerms factors := by
  obtain ⟨index, -, done⟩ := bind_eq_ok done
  obtain ⟨values, placed, done⟩ := bind_eq_ok done
  cases done
  exact ⟨rfl, (size_of_foldlM placed).trans Array.size_replicate⟩

/-! ## Looking up -/

namespace SegmentFactors

/-- The factors of an id, one per segment, and none behind the last id. -/
def row (factors : SegmentFactors) (id : Nat) : List Double :=
  (factors.values.extract (id * factors.segments) (id * factors.segments + factors.segments)).toList

theorem getElem?_row {id column : Nat} (inside : column < factors.segments) :
    (factors.row id)[column]? = factors.values[id * factors.segments + column]? := by
  rw [row, Array.getElem?_toList, Array.getElem?_extract]
  split
  next => rfl
  next beyond => exact (Array.getElem?_eq_none (by omega)).symm

/-- A lookup reads the cell that it counts to, whichever row that is in. -/
theorem get_eq {zone : UInt32} {segment : UInt64}
    (counted : zone.toNat * factors.segments + segment.toNat < UInt64.size) :
    factors.get zone segment =
      .ok (factors.values[zone.toNat * factors.segments + segment.toNat]?.getD .zero) := by
  have start : (zone.toNat * factors.segments).toUInt64.toNat = zone.toNat * factors.segments :=
    UInt64.toNat_ofNat_of_lt' (Nat.lt_of_le_of_lt (Nat.le_add_right ..) counted)
  have cell := UInt64.toNat_ofNat_of_lt' counted
  have product : zone.toNat * factors.segments =
      zone.toUInt64.toNat * factors.segments.toUInt64.toNat := by
    rw [UInt32.toNat_toUInt64]
    rcases Nat.eq_zero_or_pos zone.toNat with none | some
    · rw [none, Nat.zero_mul, Nat.zero_mul]
    · have narrow : factors.segments < UInt64.size := by
        have := Nat.le_mul_of_pos_left factors.segments some
        omega
      rw [UInt64.toNat_ofNat_of_lt' narrow]
  refine bind_eq_ok_iff.mpr ⟨_, Word.product_eq_ok_iff.mpr (start.trans product),
    bind_eq_ok_iff.mpr ⟨_, Word.sum_eq_ok_iff.mpr (cell.trans (by rw [start])), ?_⟩⟩
  rw [cell]
  rfl

/-- A lookup of a place that no word holds stops the run. -/
theorem get_of_wide {zone : UInt32} {segment : UInt64} (narrow : factors.segments < UInt64.size)
    (wide : UInt64.size ≤ zone.toNat * factors.segments + segment.toNat) :
    factors.get zone segment = .error .outOfBounds := by
  have words : zone.toUInt64.toNat * factors.segments.toUInt64.toNat = zone.toNat * factors.segments := by
    rw [UInt32.toNat_toUInt64, UInt64.toNat_ofNat_of_lt' narrow]
  cases product : Word.product zone.toUInt64 factors.segments.toUInt64 with
  | error fault =>
    rw [get, product, Word.holding_eq_error product]
    rfl
  | ok start =>
    have beyond : Word.sum start segment = .error .outOfBounds := by
      refine Word.holding_of_le ?_
      rwa [Word.product_eq_ok_iff.mp product, words]
    rw [get, product]
    exact congrArg (· >>= fun cell => pure (factors.values[cell.toNat]?.getD .zero)) beyond

/-- A lookup with a segment that there is reads the row of its zone. -/
theorem get_eq_own {zone : UInt32} {segment : UInt64}
    (counted : zone.toNat * factors.segments + segment.toNat < UInt64.size)
    (inside : segment.toNat < factors.segments) :
    factors.get zone segment = .ok ((factors.row zone.toNat)[segment.toNat]?.getD .zero) := by
  rw [get_eq counted, getElem?_row inside]

/-- Any lookup reads the row that as many zones further on as the segment has rows in it. -/
theorem get_eq_row {zone : UInt32} {segment : UInt64} (some_segment : 0 < factors.segments)
    (counted : zone.toNat * factors.segments + segment.toNat < UInt64.size) :
    factors.get zone segment = .ok ((factors.row (zone.toNat + segment.toNat / factors.segments))[
      segment.toNat % factors.segments]?.getD .zero) := by
  have place : (zone.toNat + segment.toNat / factors.segments) * factors.segments +
      segment.toNat % factors.segments = zone.toNat * factors.segments + segment.toNat := by
    rw [Nat.add_mul, Nat.add_assoc, Nat.mul_comm (_ / _), Nat.div_add_mod]
  rw [get_eq counted, getElem?_row (Nat.mod_lt _ some_segment), place]

end SegmentFactors

theorem Shaped.length_row (shaped : Shaped sizeTerms factors) (id : Nat) :
    (factors.row id).length = if id ≤ sizeTerms.maxZone.toNat then sizeTerms.width else 0 := by
  simp only [SegmentFactors.row, Array.length_toList, Array.size_extract, shaped.segments, shaped.size]
  split
  next within =>
    have reach : (id + 1) * sizeTerms.width ≤ (sizeTerms.maxZone.toNat + 1) * sizeTerms.width :=
      Nat.mul_le_mul_right _ (Nat.succ_le_succ within)
    rw [Nat.succ_mul] at reach
    omega
  next beyond =>
    have reach : (sizeTerms.maxZone.toNat + 1) * sizeTerms.width ≤ id * sizeTerms.width :=
      Nat.mul_le_mul_right _ (Nat.not_le.mp beyond)
    omega

/-- Weights are zero outside the table. -/
theorem weight_eq_zero_of_outside {zone : UInt32} {weight : Double}
    (outside : sizeTerms.maxZone < zone ∨ sizeTerms.width ≤ segment)
    (found : sizeTerms.get zone segment = .ok weight) : weight = .zero := by
  obtain ⟨row, cut, found⟩ := bind_eq_ok found
  cases found
  have short : row.length ≤ segment := by
    unfold SizeTermTable.row at cut
    split at cut
    next beyond =>
      cases cut
      exact Nat.zero_le _
    next within =>
      simp only at cut
      split at cut
      next reach =>
        cases cut
        have wide := outside.resolve_left within
        simp only [Array.length_toList, Array.size_extract]
        omega
      next => cases cut
  rw [List.getElem?_eq_none short]
  rfl

/-- What lookups in factors come to, whatever table and segments these were computed for: with a segment that
there is the factor in the row of the zone, with any other the one that stands there in the rows behind, and zero
only behind the last row. A place that no word holds stops the run. A lookup in the size terms themselves is zero
outside the table. -/
structure Lookups (sizeTerms : SizeTermTable) (factors : SegmentFactors) : Prop extends Shaped sizeTerms factors where
  own : ∀ (zone : UInt32) (segment : UInt64), zone ≤ sizeTerms.maxZone → segment.toNat < sizeTerms.width →
    zone.toNat * sizeTerms.width + segment.toNat < UInt64.size →
      ∃ value, (factors.row zone.toNat)[segment.toNat]? = some value ∧ factors.get zone segment = .ok value
  onward : ∀ (zone : UInt32) (segment : UInt64), 0 < sizeTerms.width →
    zone.toNat * sizeTerms.width + segment.toNat < UInt64.size →
      factors.get zone segment = .ok ((factors.row (zone.toNat + segment.toNat / sizeTerms.width))[
        segment.toNat % sizeTerms.width]?.getD .zero)
  behind : ∀ (zone : UInt32) (segment : UInt64), sizeTerms.width = 0 ∨
    sizeTerms.maxZone.toNat < zone.toNat + segment.toNat / sizeTerms.width →
      zone.toNat * sizeTerms.width + segment.toNat < UInt64.size → factors.get zone segment = .ok .zero
  beyond : ∀ (zone : UInt32) (segment : UInt64), sizeTerms.width < UInt64.size →
    UInt64.size ≤ zone.toNat * sizeTerms.width + segment.toNat → factors.get zone segment = .error .outOfBounds
  sizeTerm : ∀ (zone : UInt32) (segment : Nat) weight, sizeTerms.maxZone < zone ∨ sizeTerms.width ≤ segment →
    sizeTerms.get zone segment = .ok weight → weight = .zero

/-- Lookups in factors are bounded by the last row alone. -/
theorem lookups_of_schoolFactors (done : schoolFactors sizeTerms school zones enrollment = .ok factors) :
    Lookups sizeTerms factors := by
  have shaped := shaped_of_schoolFactors done
  have onward (zone : UInt32) (segment : UInt64) (some_segment : 0 < sizeTerms.width)
      (counted : zone.toNat * sizeTerms.width + segment.toNat < UInt64.size) :
      factors.get zone segment = .ok ((factors.row (zone.toNat + segment.toNat / sizeTerms.width))[
        segment.toNat % sizeTerms.width]?.getD .zero) := by
    rw [← shaped.segments] at some_segment counted ⊢
    exact SegmentFactors.get_eq_row some_segment counted
  refine { shaped with
    own := ?own, onward, behind := ?behind, beyond := ?beyond
    sizeTerm := fun _ _ _ => weight_eq_zero_of_outside }
  case own =>
    intro zone segment within inside counted
    rw [← shaped.segments] at counted
    have length := shaped.length_row zone.toNat
    rw [if_pos (UInt32.le_iff_toNat_le.mp within)] at length
    have found := List.getElem?_eq_getElem (l := factors.row zone.toNat) (i := segment.toNat) (by rwa [length])
    refine ⟨_, found, ?_⟩
    rw [SegmentFactors.get_eq_own counted (shaped.segments ▸ inside), found]
    rfl
  case behind =>
    intro zone segment beyond counted
    rcases Nat.eq_zero_or_pos sizeTerms.width with none | some_segment
    · have empty : factors.values = #[] := by
        rw [← Array.size_eq_zero_iff, shaped.size, none, Nat.mul_zero]
      rw [SegmentFactors.get_eq (shaped.segments ▸ counted), empty]
      rfl
    · have beyond := beyond.resolve_left (Nat.ne_of_gt some_segment)
      have short : (factors.row (zone.toNat + segment.toNat / sizeTerms.width)).length = 0 := by
        rw [shaped.length_row, if_neg (Nat.not_le.mpr beyond)]
      rw [onward zone segment some_segment counted, List.getElem?_eq_none (short ▸ Nat.zero_le _)]
      rfl
  case beyond =>
    intro zone segment narrow wide
    rw [← shaped.segments] at narrow wide
    exact SegmentFactors.get_of_wide narrow wide

/-- Two zones in the same districts, one behind the other, with one pupil each. -/
def neighbours : ZoneSystem :=
  ⟨["pupils"], #[⟨1, .zero, .zero, ⟨4, 20⟩, [.one]⟩, ⟨2, .zero, .zero, ⟨4, 20⟩, [.one]⟩]⟩

/-- The five segments of the two zones. -/
def neighbourSegments : SchoolSegments := .ofCodes .standard [4] [20]

/-- The size terms of the two zones, from one to five in each. -/
def neighbourTerms : Outcome Noted :=
  schoolSizeTerms neighbours neighbourSegments
    (.ofFunction ["preschool", "grade", "high", "typical", "other"] fun _ _ => .ok counting) {}

theorem exists_neighbourFactors : ∃ noted factors, neighbourTerms = .ok noted ∧
    schoolFactors noted.table neighbourSegments neighbours "pupils" = .ok factors ∧
      (noted.table.maxZone, noted.table.width) = (2, 5) ∧ factors.get 1 5 = .ok .one := by
  have computed : (do
      let noted ← neighbourTerms
      let factors ← schoolFactors noted.table neighbourSegments neighbours "pupils"
      return ((noted.table.maxZone, noted.table.width), factors.get 1 5)) = .ok ((2, 5), .ok .one) := by
    decide +kernel
  obtain ⟨noted, terms, computed⟩ := bind_eq_ok computed
  obtain ⟨factors, done, computed⟩ := bind_eq_ok computed
  obtain ⟨shape, factor⟩ := Prod.mk.inj (Except.ok.inj computed)
  exact ⟨noted, factors, terms, done, shape, factor⟩

/-- The eighth factor of the first zone is the third of the second, and an eleventh there is not. -/
theorem lookups_of_schoolFactors_neighbours :
    ∃ noted factors, neighbourTerms = .ok noted ∧
      schoolFactors noted.table neighbourSegments neighbours "pupils" = .ok factors ∧
        factors.get 1 7 = .ok ((factors.row 2)[2]?.getD .zero) ∧ factors.get 1 10 = .ok .zero := by
  obtain ⟨noted, factors, terms, done, shape, -⟩ := exists_neighbourFactors
  obtain ⟨last, width⟩ := Prod.mk.inj shape
  have lookups := lookups_of_schoolFactors done
  have onward := lookups.onward 1 7
  have behind := lookups.behind 1 10
  rw [width] at onward behind
  rw [last] at behind
  exact ⟨noted, factors, terms, done, onward (by decide) (by decide), behind (by decide) (by decide)⟩

/-- A zone has the preschool factor of the next one for a segment that there is not, where its size term is zero. -/
theorem get_beyond_segments :
    SchoolSegments.build .standard neighbours.districts = .ok neighbourSegments ∧
      ∃ noted factors, neighbourTerms = .ok noted ∧
        schoolFactors noted.table neighbourSegments neighbours "pupils" = .ok factors ∧
          factors.segments = 5 ∧ factors.get 1 5 = .ok .one ∧ noted.table.get 1 5 = .ok .zero := by
  refine ⟨by decide +kernel, ?_⟩
  obtain ⟨noted, factors, terms, done, shape, factor⟩ := exists_neighbourFactors
  have weight : (do let noted ← neighbourTerms; noted.table.get 1 5) = .ok .zero := by decide +kernel
  rw [terms] at weight
  have segments : factors.segments = 5 :=
    (shaped_of_schoolFactors done).segments.trans (Prod.mk.inj shape).2
  exact ⟨noted, factors, terms, done, segments, factor, weight⟩

end Accessibility.Setup
