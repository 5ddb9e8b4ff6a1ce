import Accessibility.Proofs.Segment.SchoolLayout

/-! Which pairs of districts lead to school segments. What is looked up is the code of the pair, and a pair
that is asked for is not held against the offset, as those are that segments are built from. Below the offset
a pair leads to a segment exactly if one that counts as the same is listed. A district at or above it is
taken for a code as it stands, and if that is the code of a listed unified district it leads to the segment
of that one (`resolves_of_build`). -/
namespace Accessibility

namespace CodeIndex

/-- A code has a segment exactly if it is registered, and is named by the fault if it is not. -/
theorem get_cases (index : CodeIndex) (code : UInt32) :
    (code ∈ index.codes ∧ ∃ segment, index.get code = .ok segment) ∨
      code ∉ index.codes ∧ index.get code = .error (Segment.Refusal.noCode index.kind code).fault := by
  unfold get codes
  cases found : index.entries.find? (·.1 = code) with
  | some entry =>
    have there : entry.1 = code := by simpa using List.find?_some found
    exact .inl ⟨there ▸ List.mem_map_of_mem (List.mem_of_find?_eq_some found), entry.2, rfl⟩
  | none =>
    refine .inr ⟨fun listed => ?_, rfl⟩
    obtain ⟨entry, member, same⟩ := List.mem_map.mp listed
    simpa [same] using List.find?_eq_none.mp found entry member

end CodeIndex

namespace SegmentIndexer

variable {indexer : SegmentIndexer} {pair districts : Districts} {own own' : UInt32}

/-- Districts that have codes, wherever they lie. -/
def Codable (indexer : SegmentIndexer) (districts : Districts) : Prop :=
  districts.grade = 0 → indexer.offset.toNat + districts.high.toNat < UInt32.size

instance (indexer : SegmentIndexer) (districts : Districts) : Decidable (indexer.Codable districts) :=
  inferInstanceAs (Decidable (_ → _))

theorem districtCodes_eq_of_codable (codable : indexer.Codable districts) :
    indexer.districtCodes districts = .ok (indexer.gradeCode districts, indexer.highCode districts) := by
  rw [districtCodes_eq]
  exact if_pos codable

theorem districtCodes_eq_of_not_codable (beyond : ¬ indexer.Codable districts) :
    indexer.districtCodes districts =
      .error (Segment.Refusal.unifiedOverflow districts.high indexer.offset).fault := by
  rw [districtCodes_eq]
  exact if_neg beyond

/-- A listed pair has the code of districts that are asked for if they count as the same, or if the pair is
unified and its code is asked for as if it were a district. -/
theorem familyCode_eq_asked_iff (fits : indexer.Fits pair) (below : own < indexer.offset) :
    indexer.Codable districts ∧ indexer.familyCode pair own = indexer.familyCode districts own' ↔
      (districts.grade = 0 ∧ pair.grade = 0 ∧ pair.high = districts.high) ∨
        (districts.grade ≠ 0 ∧ pair.grade ≠ 0 ∧ own = own') ∨
          (districts.grade ≠ 0 ∧ pair.grade = 0 ∧ indexer.offset + pair.high = own') := by
  unfold familyCode Codable
  by_cases unified : pair.grade = 0 <;> by_cases unified' : districts.grade = 0
  · have same (equal : pair.high = districts.high) :
        indexer.offset.toNat + districts.high.toNat < UInt32.size := equal ▸ fits.unified unified
    simpa [unified, unified'] using same
  · simp [unified, unified']
  · -- The code of a unified pair that is asked for is not below the offset, and that of a plain one is.
    simp only [unified, unified', forall_const, ↓reduceIte, false_and, and_false, ne_eq,
      not_true_eq_false, or_self, iff_false, not_and]
    intro within
    have above : indexer.offset ≤ indexer.offset + districts.high := by
      rw [UInt32.le_iff_toNat_le, UInt32.toNat_add, Nat.mod_eq_of_lt within]
      exact Nat.le_add_right ..
    exact UInt32.ne_of_lt (UInt32.lt_of_lt_of_le below above)
  · simp [unified, unified']

end SegmentIndexer

namespace SchoolSegments

variable {indexer : SegmentIndexer} {zones : List (UInt32 × Districts)} {school : SchoolSegments}
  {pair districts : Districts} {own own' code : UInt32} {listed : List Districts} {grades highs : List UInt32}

/-- A listed pair has the grade-school district of these, or is unified as these are and has their
high-school district. -/
def RegisteredGrade (listed : List Districts) (districts : Districts) : Prop :=
  ∃ pair ∈ listed, (districts.grade ≠ 0 ∧ pair.grade = districts.grade) ∨
    (districts.grade = 0 ∧ pair.grade = 0 ∧ pair.high = districts.high)

/-- A listed pair has the high-school district of these, and both are unified or neither is. -/
def RegisteredHigh (listed : List Districts) (districts : Districts) : Prop :=
  ∃ pair ∈ listed, pair.high = districts.high ∧ (pair.grade = 0 ↔ districts.grade = 0)

/-- A number that is the code of a listed unified district. -/
def UnifiedCode (indexer : SegmentIndexer) (listed : List Districts) (code : UInt32) : Prop :=
  ∃ pair ∈ listed, pair.grade = 0 ∧ indexer.offset + pair.high = code

/-- What is said of a pair that leads nowhere. -/
inductive Unresolved (indexer : SegmentIndexer) (kind : String) (districts : Districts) (code : UInt32) :
    Fault → Prop where
  | unregistered : Unresolved indexer kind districts code (.lookup s!"{kind} code {code} has no segment")
  | overflow (unified : districts.grade = 0)
      (beyond : UInt32.size ≤ indexer.offset.toNat + districts.high.toNat) :
      Unresolved indexer kind districts code
        (.configuration s!"unified district {districts.high} overflows offset {indexer.offset}")

/-- What a pair of districts, whichever it is, leads to in segments that were built from listed ones. -/
structure Resolves (indexer : SegmentIndexer) (listed : List Districts) (school : SchoolSegments)
    (districts : Districts) : Prop where
  grade : (∃ segment, school.gradeSegment districts = .ok segment) ↔
    RegisteredGrade listed districts ∨ UnifiedCode indexer listed districts.grade
  high : (∃ segment, school.highSegment districts = .ok segment) ↔
    RegisteredHigh listed districts ∨ districts.grade ≠ 0 ∧ UnifiedCode indexer listed districts.high
  /-- Below the offset nothing but listed districts leads to a segment. -/
  gradeBelow : districts.grade < indexer.offset →
    ((∃ segment, school.gradeSegment districts = .ok segment) ↔ RegisteredGrade listed districts)
  highBelow : districts.high < indexer.offset →
    ((∃ segment, school.highSegment districts = .ok segment) ↔ RegisteredHigh listed districts)
  /-- The code of a listed unified district leads to its segments. -/
  gradeUnified : ∀ pair ∈ listed, pair.grade = 0 → indexer.offset + pair.high = districts.grade →
    school.gradeSegment districts = school.gradeSegment pair
  highUnified : ∀ pair ∈ listed, pair.grade = 0 → districts.grade ≠ 0 →
    indexer.offset + pair.high = districts.high → school.highSegment districts = school.highSegment pair
  gradeFault : ∀ fault, school.gradeSegment districts = .error fault →
    Unresolved indexer "grade school district" districts (indexer.gradeCode districts) fault
  highFault : ∀ fault, school.highSegment districts = .error fault →
    Unresolved indexer "high school district" districts (indexer.highCode districts) fault

/-- Of a pair that is asked for the code in a family is looked up, if the pair has one. -/
theorem lookup_cases (indexer : SegmentIndexer) (index : CodeIndex) (side : UInt32 × UInt32 → UInt32)
    (districts : Districts) :
    let code := side (indexer.gradeCode districts, indexer.highCode districts)
    let outcome := indexer.districtCodes districts >>= fun codes => index.get (side codes)
    ((indexer.Codable districts ∧ code ∈ index.codes) ∧ ∃ segment, outcome = .ok segment) ∨
      ¬ (indexer.Codable districts ∧ code ∈ index.codes) ∧
        ∃ fault, outcome = .error fault ∧ Unresolved indexer index.kind districts code fault := by
  intro code outcome
  by_cases codable : indexer.Codable districts
  · have looked : outcome = index.get code := by
      simp only [outcome, SegmentIndexer.districtCodes_eq_of_codable codable]
      rfl
    rw [looked]
    obtain ⟨listed, led⟩ | ⟨absent, refused⟩ := index.get_cases code
    · exact .inl ⟨⟨codable, listed⟩, led⟩
    · exact .inr ⟨fun found => absent found.2, _, refused, .unregistered⟩
  · have refused : outcome = .error (Segment.Refusal.unifiedOverflow districts.high indexer.offset).fault := by
      simp only [outcome, SegmentIndexer.districtCodes_eq_of_not_codable codable]
      rfl
    obtain ⟨unified, beyond⟩ := Classical.not_imp.mp codable
    exact .inr ⟨fun found => codable found.1, _, refused, .overflow unified (Nat.le_of_not_lt beyond)⟩

theorem unresolved_of_lookup (index : CodeIndex) (side : UInt32 × UInt32 → UInt32) {fault : Fault}
    (refused : (indexer.districtCodes districts >>= fun codes => index.get (side codes)) = .error fault) :
    Unresolved indexer index.kind districts (side (indexer.gradeCode districts, indexer.highCode districts))
      fault := by
  obtain ⟨-, segment, led⟩ | ⟨-, other, refused', unresolved⟩ := lookup_cases indexer index side districts
  · cases led.symm.trans refused
  · cases refused'.symm.trans refused
    exact unresolved

/-- Pairs of one code lead to the same. -/
theorem lookup_congr (index : CodeIndex) (side : UInt32 × UInt32 → UInt32) (codable : indexer.Codable districts)
    (codable' : indexer.Codable pair)
    (same : side (indexer.gradeCode districts, indexer.highCode districts) =
      side (indexer.gradeCode pair, indexer.highCode pair)) :
    (indexer.districtCodes districts >>= fun codes => index.get (side codes)) =
      (indexer.districtCodes pair >>= fun codes => index.get (side codes)) := by
  rw [SegmentIndexer.districtCodes_eq_of_codable codable, SegmentIndexer.districtCodes_eq_of_codable codable']
  exact congrArg index.get same

/-- Districts that are asked for lead to a segment of a family exactly if some listed pair has their code. -/
theorem lookup_ok_iff (index : CodeIndex) (side : UInt32 × UInt32 → UInt32) (own : Districts → UInt32)
    (family : ∀ pair, side (indexer.gradeCode pair, indexer.highCode pair) = indexer.familyCode pair (own pair))
    (fits : ∀ pair ∈ listed, indexer.Fits pair) (below : ∀ pair ∈ listed, own pair < indexer.offset)
    (codes : ∀ code, code ∈ index.codes ↔ ∃ pair ∈ listed, indexer.familyCode pair (own pair) = code)
    (districts : Districts) :
    (∃ segment, (indexer.districtCodes districts >>= fun codes => index.get (side codes)) = .ok segment) ↔
      (∃ pair ∈ listed, (districts.grade = 0 ∧ pair.grade = 0 ∧ pair.high = districts.high) ∨
        (districts.grade ≠ 0 ∧ pair.grade ≠ 0 ∧ own pair = own districts)) ∨
          districts.grade ≠ 0 ∧ UnifiedCode indexer listed (own districts) := by
  have asked : (indexer.Codable districts ∧
      side (indexer.gradeCode districts, indexer.highCode districts) ∈ index.codes) ↔
        ∃ pair ∈ listed, indexer.Codable districts ∧
          indexer.familyCode pair (own pair) = indexer.familyCode districts (own districts) := by
    rw [family, codes]
    constructor
    · rintro ⟨codable, pair, member, same⟩
      exact ⟨pair, member, codable, same⟩
    · rintro ⟨pair, member, codable, same⟩
      exact ⟨codable, pair, member, same⟩
  have led : (∃ segment, (indexer.districtCodes districts >>= fun codes => index.get (side codes)) = .ok segment) ↔
      indexer.Codable districts ∧ side (indexer.gradeCode districts, indexer.highCode districts) ∈ index.codes := by
    obtain ⟨found, led⟩ | ⟨absent, fault, refused, -⟩ := lookup_cases indexer index side districts
    · exact iff_of_true led found
    · refine iff_of_false ?_ absent
      rintro ⟨segment, led⟩
      cases led.symm.trans refused
  rw [led, asked]
  unfold UnifiedCode
  constructor
  · rintro ⟨pair, member, same⟩
    obtain equal | equal | ⟨plain, unified, code⟩ :=
      (SegmentIndexer.familyCode_eq_asked_iff (fits pair member) (below pair member)).mp same
    · exact .inl ⟨pair, member, .inl equal⟩
    · exact .inl ⟨pair, member, .inr equal⟩
    · exact .inr ⟨plain, pair, member, unified, code⟩
  · rintro (⟨pair, member, equal | equal⟩ | ⟨plain, pair, member, unified, code⟩) <;>
      refine ⟨pair, member, (SegmentIndexer.familyCode_eq_asked_iff (fits pair member) (below pair member)).mpr ?_⟩
    · exact .inl equal
    · exact .inr (.inl equal)
    · exact .inr (.inr ⟨plain, unified, code⟩)

/-- Codes of unified districts are not below the offset, and so are no grade-school district that says that
a pair is unified. -/
theorem above_of_unifiedCode (fits : ∀ pair ∈ listed, indexer.Fits pair) (unified : UnifiedCode indexer listed code) :
    indexer.offset ≤ code ∧ code ≠ 0 := by
  obtain ⟨pair, member, unified, rfl⟩ := unified
  have above := SegmentIndexer.offset_le_unified (fits pair member) unified
  have some_offset : 0 < indexer.offset := Std.lt_of_le_of_lt UInt32.zero_le (fits pair member).high
  exact ⟨above, (UInt32.ne_of_lt (Std.lt_of_lt_of_le some_offset above)).symm⟩

theorem resolves_ofCodes {grades highs : List UInt32} (fits : ∀ pair ∈ listed, indexer.Fits pair)
    (members : ∀ code, code ∈ grades ↔ ∃ pair ∈ listed, indexer.gradeCode pair = code)
    (members' : ∀ code, code ∈ highs ↔ ∃ pair ∈ listed, indexer.highCode pair = code) (districts : Districts) :
    Resolves indexer listed (ofCodes indexer grades highs) districts := by
  have gradeCodes : (ofCodes indexer grades highs).grade.codes = grades := CodeIndex.codes_entriesFrom ..
  have highCodes : (ofCodes indexer grades highs).high.codes = highs := CodeIndex.codes_entriesFrom ..
  have grade : (∃ segment, (ofCodes indexer grades highs).gradeSegment districts = .ok segment) ↔
      RegisteredGrade listed districts ∨ UnifiedCode indexer listed districts.grade := by
    have led := lookup_ok_iff (ofCodes indexer grades highs).grade Prod.fst Districts.grade (fun pair => rfl) fits
      (fun pair member => (fits pair member).grade) (by rw [gradeCodes]; exact members) districts
    refine led.trans (or_congr (exists_congr fun pair => and_congr_right fun _ => ?_) ?_)
    · rw [or_comm]
      exact or_congr_left (and_congr_right fun plain => ⟨And.right, fun same => ⟨same ▸ plain, same⟩⟩)
    · exact and_iff_right_of_imp fun unified => (above_of_unifiedCode fits unified).2
  have high : (∃ segment, (ofCodes indexer grades highs).highSegment districts = .ok segment) ↔
      RegisteredHigh listed districts ∨ districts.grade ≠ 0 ∧ UnifiedCode indexer listed districts.high := by
    have led := lookup_ok_iff (ofCodes indexer grades highs).high Prod.snd Districts.high (fun pair => rfl) fits
      (fun pair member => (fits pair member).high) (by rw [highCodes]; exact members') districts
    refine led.trans (or_congr_left (exists_congr fun pair => and_congr_right fun _ => ?_))
    by_cases unified : districts.grade = 0 <;> by_cases unified' : pair.grade = 0 <;> simp [unified, unified']
  have below {code : UInt32} (low : code < indexer.offset) : ¬ UnifiedCode indexer listed code := fun unified =>
    absurd (above_of_unifiedCode fits unified).1 (UInt32.not_le.mpr low)
  refine ⟨grade, high, fun low => ?_, fun low => ?_, ?_, ?_, ?_, ?_⟩
  · rw [grade, or_iff_left (below low)]
  · rw [high, or_iff_left fun unified => below low unified.2]
  · intro pair member unified code
    have plain : districts.grade ≠ 0 := code ▸ (above_of_unifiedCode fits ⟨pair, member, unified, rfl⟩).2
    have codable : indexer.Codable districts := fun none => absurd none plain
    have same : indexer.gradeCode districts = indexer.gradeCode pair := by
      simp only [SegmentIndexer.gradeCode, SegmentIndexer.familyCode, if_neg plain, if_pos unified, code]
    exact lookup_congr _ Prod.fst codable (fits pair member).unified same
  · intro pair member unified plain code
    have codable : indexer.Codable districts := fun none => absurd none plain
    have same : indexer.highCode districts = indexer.highCode pair := by
      simp only [SegmentIndexer.highCode, SegmentIndexer.familyCode, if_neg plain, if_pos unified, code]
    exact lookup_congr _ Prod.snd codable (fits pair member).unified same
  · exact fun fault refused => unresolved_of_lookup _ Prod.fst refused
  · exact fun fault refused => unresolved_of_lookup _ Prod.snd refused

/-- What queries find in segments that were built from a list of zones. Districts below the offset lead to a
segment exactly if they are registered. One at or above it is not refused: where it is the code of a listed
unified district, it leads to the segment of that district. Any other pair is refused. -/
theorem resolves_of_build (built : build indexer zones = .ok school) (districts : Districts) :
    Resolves indexer (zones.map (·.2)) school districts := by
  obtain ⟨fits, rfl⟩ := build_eq_ok built
  refine resolves_ofCodes (fun pair member => ?_) (fun code => ?_) (fun code => ?_) districts
  · obtain ⟨zone, listed, rfl⟩ := List.mem_map.mp member
    exact fits zone listed
  · exact mem_distinctCodes.trans List.mem_map
  · exact mem_distinctCodes.trans List.mem_map

/-- The segments of one zone, in a unified district. -/
theorem build_unified : build .standard [(2, ⟨0, 21⟩)] = .ok (ofCodes .standard [1000021] [1000021]) :=
  build_of_fits (by decide)

/-- A high-school district that is no district leads to a segment, a grade-school district that is none of
the listed ones does not. -/
theorem resolves_of_build_unified :
    build .standard [(2, ⟨0, 21⟩)] = .ok (ofCodes .standard [1000021] [1000021]) ∧
      (∃ segment, (ofCodes .standard [1000021] [1000021]).highSegment ⟨4, 1000021⟩ = .ok segment) ∧
        ¬ ∃ segment, (ofCodes .standard [1000021] [1000021]).gradeSegment ⟨4, 1000021⟩ = .ok segment := by
  have resolves := resolves_of_build build_unified ⟨4, 1000021⟩
  refine ⟨build_unified, resolves.high.mpr (.inr ⟨by decide, ⟨0, 21⟩, by decide, rfl, rfl⟩), ?_⟩
  rw [resolves.gradeBelow (by decide)]
  simp [RegisteredGrade]

/-- Neither a zone of grade-school district 1000021 nor one of district 4 and high-school district 1000021 is
listed, and yet both have segments: those of the unified district 21. -/
theorem resolves_unregistered :
    ∃ school, build .standard [(2, ⟨0, 21⟩)] = .ok school ∧
      (school.gradeSegment ⟨1000021, 0⟩ = .ok 1 ∧ ¬ RegisteredGrade [⟨0, 21⟩] ⟨1000021, 0⟩) ∧
        school.highSegment ⟨4, 1000021⟩ = .ok 2 ∧ ¬ RegisteredHigh [⟨0, 21⟩] ⟨4, 1000021⟩ := by
  refine ⟨_, build_unified, ⟨by decide +kernel, ?_⟩, by decide +kernel, ?_⟩
  · simp [RegisteredGrade]
  · simp [RegisteredHigh]

end SchoolSegments

end Accessibility
