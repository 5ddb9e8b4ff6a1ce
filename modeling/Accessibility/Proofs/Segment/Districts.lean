import Accessibility.Proofs.Outcome
import Accessibility.Proofs.Segment.Indexer
import Accessibility.Segment.School

/-! Codes of pairs of districts. Where both districts are below the offset and a unified one can be put on
top of it, each family has a code for the pair (`admits_iff`): its own district, or that of the unified
district. Plain codes are below the offset and unified ones are not, so two pairs have one code exactly if
both are unified or neither is, and the districts that count are the same (`familyCode_eq_iff`). -/
namespace Accessibility

namespace SegmentIndexer

variable {indexer : SegmentIndexer} {districts districts' : Districts} {own own' : UInt32}

/-- Districts that can be given codes. -/
structure Fits (indexer : SegmentIndexer) (districts : Districts) : Prop where
  grade : districts.grade < indexer.offset
  high : districts.high < indexer.offset
  unified : districts.grade = 0 → indexer.offset.toNat + districts.high.toNat < UInt32.size

instance (indexer : SegmentIndexer) (districts : Districts) : Decidable (indexer.Fits districts) :=
  decidable_of_iff (districts.grade < indexer.offset ∧ districts.high < indexer.offset ∧
      (districts.grade = 0 → indexer.offset.toNat + districts.high.toNat < UInt32.size))
    ⟨fun ⟨grade, high, unified⟩ => ⟨grade, high, unified⟩, fun ⟨grade, high, unified⟩ => ⟨grade, high, unified⟩⟩

/-- What is said of a zone whose districts cannot be given codes. -/
inductive Refuses (indexer : SegmentIndexer) (zone : UInt32) (districts : Districts) : Fault → Prop where
  | tooLarge (above : indexer.offset ≤ districts.grade ∨ indexer.offset ≤ districts.high) :
      Refuses indexer zone districts
        (.configuration s!"zone {zone}: district codes must be below {indexer.offset}")
  | overflow (unified : districts.grade = 0)
      (beyond : UInt32.size ≤ indexer.offset.toNat + districts.high.toNat) :
      Refuses indexer zone districts
        (.configuration s!"unified district {districts.high} overflows offset {indexer.offset}")

/-- Code of a pair of districts in the family that one of them is of: that district, or the unified one. -/
def familyCode (indexer : SegmentIndexer) (districts : Districts) (own : UInt32) : UInt32 :=
  if districts.grade = 0 then indexer.offset + districts.high else own

/-- Grade-school code of a pair of districts. -/
def gradeCode (indexer : SegmentIndexer) (districts : Districts) : UInt32 :=
  indexer.familyCode districts districts.grade

/-- High-school code of a pair of districts. -/
def highCode (indexer : SegmentIndexer) (districts : Districts) : UInt32 :=
  indexer.familyCode districts districts.high

theorem districtCodes_eq (indexer : SegmentIndexer) (districts : Districts) :
    indexer.districtCodes districts =
      if districts.grade = 0 → indexer.offset.toNat + districts.high.toNat < UInt32.size then
        .ok (indexer.gradeCode districts, indexer.highCode districts)
      else .error (Segment.Refusal.unifiedOverflow districts.high indexer.offset).fault := by
  unfold districtCodes gradeCode highCode familyCode
  by_cases unified : districts.grade = 0 <;> simp [unified]

/-- Unified codes are not below the offset. -/
theorem offset_le_unified (fits : indexer.Fits districts) (unified : districts.grade = 0) :
    indexer.offset ≤ indexer.offset + districts.high := by
  rw [UInt32.le_iff_toNat_le, UInt32.toNat_add, Nat.mod_eq_of_lt (fits.unified unified)]
  exact Nat.le_add_right ..

/-- Two pairs of districts have one code in a family exactly if both are unified, and of one district, or
neither is, and their own districts are the same. -/
theorem familyCode_eq_iff (fits : indexer.Fits districts) (fits' : indexer.Fits districts')
    (below : own < indexer.offset) (below' : own' < indexer.offset) :
    indexer.familyCode districts own = indexer.familyCode districts' own' ↔
      (districts.grade = 0 ∧ districts'.grade = 0 ∧ districts.high = districts'.high) ∨
        (districts.grade ≠ 0 ∧ districts'.grade ≠ 0 ∧ own = own') := by
  have apart {plain code : UInt32} (low : plain < indexer.offset) (high : indexer.offset ≤ code) : plain ≠ code :=
    UInt32.ne_of_lt (UInt32.lt_of_lt_of_le low high)
  unfold familyCode
  by_cases unified : districts.grade = 0 <;> by_cases unified' : districts'.grade = 0
  · simp [unified, unified']
  · simpa [unified, unified'] using (apart below' (offset_le_unified fits unified)).symm
  · simpa [unified, unified'] using apart below (offset_le_unified fits' unified')
  · simp [unified, unified']

theorem gradeCode_eq_iff (fits : indexer.Fits districts) (fits' : indexer.Fits districts') :
    indexer.gradeCode districts = indexer.gradeCode districts' ↔
      (districts.grade ≠ 0 ∧ districts.grade = districts'.grade) ∨
        (districts.grade = 0 ∧ districts'.grade = 0 ∧ districts.high = districts'.high) := by
  rw [gradeCode, gradeCode, familyCode_eq_iff fits fits' fits.grade fits'.grade, or_comm]
  refine or_congr_left (and_congr_right fun plain => ⟨And.right, fun same => ⟨same ▸ plain, same⟩⟩)

theorem highCode_eq_iff (fits : indexer.Fits districts) (fits' : indexer.Fits districts') :
    indexer.highCode districts = indexer.highCode districts' ↔
      districts.high = districts'.high ∧ (districts.grade = 0 ↔ districts'.grade = 0) := by
  rw [highCode, highCode, familyCode_eq_iff fits fits' fits.high fits'.high]
  tauto

end SegmentIndexer

namespace SchoolSegments

variable {indexer : SegmentIndexer} {districts : Districts} {codes : UInt32 × UInt32}
  {zones : List (UInt32 × Districts)} {all : List (UInt32 × UInt32)} {fault : Fault}

/-- Districts that lie below the offset, and their grade and high school codes. -/
structure Admits (indexer : SegmentIndexer) (districts : Districts) (codes : UInt32 × UInt32) :
    Prop where
  grade : districts.grade < indexer.offset
  high : districts.high < indexer.offset
  coded : indexer.districtCodes districts = .ok codes

theorem codesOf_cons_eq_ok {zone : UInt32 × Districts} :
    codesOf indexer (zone :: zones) = .ok all ↔
      ∃ codes others, Admits indexer zone.2 codes ∧ codesOf indexer zones = .ok others ∧
        all = codes :: others := by
  obtain ⟨id, districts⟩ := zone
  constructor
  · intro done
    simp only [codesOf] at done
    split at done
    next => cases done
    next within =>
      simp only [Bool.or_eq_true, decide_eq_true_eq, not_or, UInt32.not_le] at within
      obtain ⟨codes, coded, done⟩ := bind_eq_ok done
      obtain ⟨others, rest, done⟩ := bind_eq_ok done
      exact ⟨codes, others, ⟨within.1, within.2, coded⟩, rest, (Except.ok.inj done).symm⟩
  · rintro ⟨codes, others, ⟨grade, high, coded⟩, rest, rfl⟩
    have within : ¬ (indexer.offset ≤ districts.grade || indexer.offset ≤ districts.high) = true := by
      simp [grade, high]
    simp only [codesOf, within, coded, rest]
    rfl

/-- Codes are given exactly to districts that fit. -/
theorem admits_iff : Admits indexer districts codes ↔
    indexer.Fits districts ∧ codes = (indexer.gradeCode districts, indexer.highCode districts) := by
  have coded : indexer.districtCodes districts = .ok codes ↔
      (districts.grade = 0 → indexer.offset.toNat + districts.high.toNat < UInt32.size) ∧
        codes = (indexer.gradeCode districts, indexer.highCode districts) := by
    rw [SegmentIndexer.districtCodes_eq]
    split
    next within => rw [Except.ok.injEq, eq_comm, and_iff_right within]
    next beyond => simp [beyond]
  constructor
  · rintro ⟨grade, high, given⟩
    obtain ⟨unified, rfl⟩ := coded.mp given
    exact ⟨⟨grade, high, unified⟩, rfl⟩
  · rintro ⟨⟨grade, high, unified⟩, same⟩
    exact ⟨grade, high, coded.mpr ⟨unified, same⟩⟩

/-- The codes of a list of zones are there exactly if all their districts fit, and are then those of each. -/
theorem codesOf_eq_ok_iff : codesOf indexer zones = .ok all ↔
    (∀ zone ∈ zones, indexer.Fits zone.2) ∧
      all = (zones.map (·.2)).map fun pair => (indexer.gradeCode pair, indexer.highCode pair) := by
  induction zones generalizing all with
  | nil => simp [codesOf, eq_comm]
  | cons zone rest ih =>
    simp only [codesOf_cons_eq_ok, admits_iff, ih, List.forall_mem_cons, List.map_cons]
    constructor
    · rintro ⟨_, _, ⟨fits, rfl⟩, ⟨each, rfl⟩, rfl⟩
      exact ⟨⟨fits, each⟩, rfl⟩
    · rintro ⟨⟨fits, each⟩, rfl⟩
      exact ⟨_, _, ⟨fits, rfl⟩, ⟨each, rfl⟩, rfl⟩

/-- Codes that are not given are refused for a zone of the list. -/
theorem refused_of_codesOf (refused : codesOf indexer zones = .error fault) :
    ∃ zone ∈ zones, indexer.Refuses zone.1 zone.2 fault := by
  induction zones with
  | nil => cases refused
  | cons zone rest ih =>
    obtain ⟨id, districts⟩ := zone
    simp only [codesOf] at refused
    split at refused
    next above =>
      cases refused
      rw [Bool.or_eq_true, decide_eq_true_eq, decide_eq_true_eq] at above
      exact ⟨_, List.mem_cons_self, .tooLarge above⟩
    next =>
      rw [SegmentIndexer.districtCodes_eq] at refused
      split at refused
      next =>
        cases others : codesOf indexer rest with
        | error other =>
          rw [others] at refused
          cases refused
          obtain ⟨zone, member, refuses⟩ := ih others
          exact ⟨zone, List.mem_cons_of_mem _ member, refuses⟩
        | ok codes =>
          rw [others] at refused
          cases refused
      next beyond =>
        cases refused
        obtain ⟨unified, beyond⟩ := Classical.not_imp.mp beyond
        exact ⟨_, List.mem_cons_self, .overflow unified (Nat.le_of_not_lt beyond)⟩

end SchoolSegments

end Accessibility
