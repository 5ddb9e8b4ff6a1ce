import Accessibility.Proofs.Segment.Registration
import Accessibility.Proofs.Segment.School

/-! The layout of school segments: preschool, a block of grade-school codes, a block of high-school codes,
and the two kinds of university student. No name comes twice (`nodup_names`): the labels of the two
families and of their unified districts are all different, and the fixed names have no separator. So what is
laid out from codes is never refused (`layOut_eq`), and a zone's districts are all that a build can fail
for (`build_lays_out`). With the fixed segments each zone has five, all different (`exists_ownCells`). -/
namespace Accessibility

namespace SchoolSegments

variable {indexer : SegmentIndexer} {pair : Districts} {zones : List (UInt32 × Districts)}
  {grades highs : List UInt32} {school : SchoolSegments}

/-- The names of school segments, with the codes they stand for. -/
def entriesOf (indexer : SegmentIndexer) (grades highs : List UInt32) : List (String × Option UInt32) :=
  [(SchoolLabels.preschool, none)] ++ grades.map (indexer.entryOf SchoolLabels.grade) ++
    highs.map (indexer.entryOf SchoolLabels.high) ++
      [(SchoolLabels.univTypical, none), (SchoolLabels.univNonTypical, none)]

/-- The school segments of ascending grade-school and high-school codes. -/
def ofCodes (indexer : SegmentIndexer) (grades highs : List UInt32) : SchoolSegments where
  indexer := indexer
  table := .extend .empty (entriesOf indexer grades highs)
  grade := ⟨"grade school district", CodeIndex.entriesFrom 1 grades⟩
  high := ⟨"high school district", CodeIndex.entriesFrom (1 + grades.length) highs⟩
  preschool := 0
  univTypical := 1 + grades.length + highs.length
  univNonTypical := 1 + grades.length + highs.length + 1

theorem names_entriesOf (indexer : SegmentIndexer) (grades highs : List UInt32) :
    (entriesOf indexer grades highs).map Prod.fst =
      SchoolLabels.preschool :: (grades.map (indexer.segmentName SchoolLabels.grade) ++
        highs.map (indexer.segmentName SchoolLabels.high) ++
          [SchoolLabels.univTypical, SchoolLabels.univNonTypical]) := by
  simp [entriesOf, SegmentIndexer.names_entryOf, -List.map_map]

theorem nodup_names (indexer : SegmentIndexer) (ascending : grades.Pairwise (· < ·))
    (ascending' : highs.Pairwise (· < ·)) : ((entriesOf indexer grades highs).map Prod.fst).Nodup := by
  have fixed : [SchoolLabels.preschool, SchoolLabels.univTypical, SchoolLabels.univNonTypical].Nodup := by decide
  have plain : ∀ name ∈ [SchoolLabels.preschool, SchoolLabels.univTypical, SchoolLabels.univNonTypical],
      '_' ∉ name.toList := by decide
  have coded (labels : CodeLabels) (apart : labels.plain ≠ labels.unified) (codes : List UInt32)
      (ascending : codes.Pairwise (· < ·)) : (codes.map (indexer.segmentName labels)).Nodup :=
    (SegmentIndexer.nodup_names_iff (ascending.imp UInt32.ne_of_lt)).mpr fun meet => apart meet.1
  have families : (grades.map (indexer.segmentName SchoolLabels.grade) ++
      highs.map (indexer.segmentName SchoolLabels.high)).Nodup := by
    refine .append (coded _ (by decide) grades ascending) (coded _ (by decide) highs ascending') ?_
    intro name listed listed'
    obtain ⟨code, -, rfl⟩ := List.mem_map.mp listed
    obtain ⟨code', -, same⟩ := List.mem_map.mp listed'
    exact SegmentIndexer.segmentName_ne_segmentName (by decide) same.symm
  rw [names_entriesOf, (List.perm_append_comm.cons _).nodup_iff]
  refine fixed.append families fun name listed coded => ?_
  obtain named | named := List.mem_append.mp coded <;>
    obtain ⟨code, -, same⟩ := List.mem_map.mp named <;>
      exact SegmentIndexer.ne_segmentName (plain name listed) same.symm

/-- Ascending codes are laid out, whatever they are. -/
theorem layOut_eq (indexer : SegmentIndexer) (ascending : grades.Pairwise (· < ·))
    (ascending' : highs.Pairwise (· < ·)) : layOut indexer grades highs = .ok (ofCodes indexer grades highs) := by
  let preschool := [(SchoolLabels.preschool, (none : Option UInt32))]
  let grade := grades.map (indexer.entryOf SchoolLabels.grade)
  let high := highs.map (indexer.entryOf SchoolLabels.high)
  let typical := [(SchoolLabels.univTypical, (none : Option UInt32))]
  let nonTypical := [(SchoolLabels.univNonTypical, (none : Option UInt32))]
  have whole : entriesOf indexer grades highs = preschool ++ grade ++ high ++ typical ++ nonTypical := by
    simp [entriesOf, preschool, grade, high, typical, nonTypical]
  have distinct := nodup_names indexer ascending ascending'
  rw [whole] at distinct
  have front {entries more : List (String × Option UInt32)} (distinct : ((entries ++ more).map Prod.fst).Nodup) :
      (entries.map Prod.fst).Nodup := by
    rw [List.map_append] at distinct
    exact (List.nodup_append.mp distinct).1
  have first : SegmentTable.empty.push SchoolLabels.preschool none = .ok (.extend .empty preschool) := rfl
  have second := SegmentIndexer.appendCodes_extend "grade school district" (front (front (front distinct)))
  have third := SegmentIndexer.appendCodes_extend "high school district" (front (front distinct))
  have fourth := SegmentTable.push_extend (front distinct)
  have fifth := SegmentTable.push_extend distinct
  have size : (preschool ++ grade).length = 1 + grades.length := by
    simp [preschool, grade, Nat.add_comm]
  have size' : SegmentTable.empty.size + (preschool ++ grade ++ high).length = 1 + grades.length + highs.length := by
    rw [List.length_append, size, List.length_map]
    exact Nat.zero_add _
  refine bind_eq_ok_iff.mpr ⟨_, first, bind_eq_ok_iff.mpr ⟨_, second, bind_eq_ok_iff.mpr ⟨_, third,
    bind_eq_ok_iff.mpr ⟨_, fourth, bind_eq_ok_iff.mpr ⟨_, fifth, congrArg Except.ok ?_⟩⟩⟩⟩⟩
  rw [ofCodes, whole, SegmentTable.size_extend, size, size']
  rfl

/-- What is laid out for districts: a segment for preschool, a block with one per grade-school code, one with
one per high-school code, and the two for university students. -/
structure Layout (indexer : SegmentIndexer) (districts : List Districts) (grades highs : List UInt32)
    (school : SchoolSegments) : Prop where
  gradesAscend : grades.Pairwise (· < ·)
  highsAscend : highs.Pairwise (· < ·)
  mem_grades : ∀ code, code ∈ grades ↔ ∃ pair ∈ districts, indexer.gradeCode pair = code
  mem_highs : ∀ code, code ∈ highs ↔ ∃ pair ∈ districts, indexer.highCode pair = code
  segments : school.table.segments = SegmentTable.segmentsFrom 0 (entriesOf indexer grades highs)
  size : school.size = 1 + grades.length + highs.length + 2
  preschool : school.preschool = 0
  univTypical : school.univTypical = 1 + grades.length + highs.length
  univNonTypical : school.univNonTypical = 1 + grades.length + highs.length + 1
  dense : school.nonUniversitySegments ++ school.universitySegments = List.range school.size
  invertible : school.table.Invertible
  /-- Listed districts have a segment in the block of each family. -/
  gradeSegment : ∀ pair ∈ districts, ∃ segment, school.gradeSegment pair = .ok segment ∧
    1 ≤ segment ∧ segment < 1 + grades.length
  highSegment : ∀ pair ∈ districts, ∃ segment, school.highSegment pair = .ok segment ∧
    1 + grades.length ≤ segment ∧ segment < 1 + grades.length + highs.length
  sameGrade : ∀ pair ∈ districts, ∀ other ∈ districts,
    (school.gradeSegment pair = school.gradeSegment other ↔
      (pair.grade ≠ 0 ∧ pair.grade = other.grade) ∨ (pair.grade = 0 ∧ other.grade = 0 ∧ pair.high = other.high))
  sameHigh : ∀ pair ∈ districts, ∀ other ∈ districts,
    (school.highSegment pair = school.highSegment other ↔
      pair.high = other.high ∧ (pair.grade = 0 ↔ other.grade = 0))

theorem gradeSegment_ofCodes (fits : indexer.Fits pair) :
    (ofCodes indexer grades highs).gradeSegment pair =
      (ofCodes indexer grades highs).grade.get (indexer.gradeCode pair) := by
  have coded : (ofCodes indexer grades highs).indexer.districtCodes pair = _ :=
    (admits_iff.mpr ⟨fits, rfl⟩).coded
  rw [SchoolSegments.gradeSegment, coded]
  rfl

theorem highSegment_ofCodes (fits : indexer.Fits pair) :
    (ofCodes indexer grades highs).highSegment pair =
      (ofCodes indexer grades highs).high.get (indexer.highCode pair) := by
  have coded : (ofCodes indexer grades highs).indexer.districtCodes pair = _ :=
    (admits_iff.mpr ⟨fits, rfl⟩).coded
  rw [SchoolSegments.highSegment, coded]
  rfl

theorem size_ofCodes (indexer : SegmentIndexer) (grades highs : List UInt32) :
    (ofCodes indexer grades highs).size = 1 + grades.length + highs.length + 2 := by
  rw [SchoolSegments.size, ofCodes, SegmentTable.size_extend, entriesOf]
  simp only [SegmentTable.size, SegmentTable.empty, List.length_append, List.length_map, List.length_cons,
    List.length_nil]
  omega

/-- Fixed segments and blocks follow each other without a gap. -/
theorem dense_ofCodes (indexer : SegmentIndexer) (grades highs : List UInt32) :
    (ofCodes indexer grades highs).nonUniversitySegments ++ (ofCodes indexer grades highs).universitySegments =
      List.range (1 + grades.length + highs.length + 2) := by
  have grade : (ofCodes indexer grades highs).grade.segments = List.range' 1 grades.length :=
    CodeIndex.segments_entriesFrom ..
  have high : (ofCodes indexer grades highs).high.segments = List.range' (1 + grades.length) highs.length :=
    CodeIndex.segments_entriesFrom ..
  have join (first count : Nat) : List.range' 0 first ++ List.range' first count = List.range' 0 (first + count) := by
    simpa using @List.range'_append_1 0 first count
  rw [nonUniversitySegments, grade, high, List.range_eq_range']
  show List.range' 0 1 ++ List.range' 1 grades.length ++ List.range' (1 + grades.length) highs.length ++
    List.range' (1 + grades.length + highs.length) 2 = _
  rw [join, join, join]

theorem layout_ofCodes {districts : List Districts} (fits : ∀ pair ∈ districts, indexer.Fits pair)
    (ascending : grades.Pairwise (· < ·)) (ascending' : highs.Pairwise (· < ·))
    (members : ∀ code, code ∈ grades ↔ ∃ pair ∈ districts, indexer.gradeCode pair = code)
    (members' : ∀ code, code ∈ highs ↔ ∃ pair ∈ districts, indexer.highCode pair = code) :
    Layout indexer districts grades highs (ofCodes indexer grades highs) := by
  have distinct : grades.Nodup := ascending.imp UInt32.ne_of_lt
  have distinct' : highs.Nodup := ascending'.imp UInt32.ne_of_lt
  have lists : (ofCodes indexer grades highs).table.Lists (entriesOf indexer grades highs) :=
    ⟨rfl, nodup_names indexer ascending ascending'⟩
  have size := size_ofCodes indexer grades highs
  have grade (pair : Districts) (member : pair ∈ districts) : indexer.gradeCode pair ∈ grades :=
    (members _).mpr ⟨pair, member, rfl⟩
  have high (pair : Districts) (member : pair ∈ districts) : indexer.highCode pair ∈ highs :=
    (members' _).mpr ⟨pair, member, rfl⟩
  exact {
    gradesAscend := ascending
    highsAscend := ascending'
    mem_grades := members
    mem_highs := members'
    segments := lists.segments
    size := size
    preschool := rfl
    univTypical := rfl
    univNonTypical := rfl
    dense := by rw [size, dense_ofCodes]
    invertible := lists.invertible
    gradeSegment := fun pair member => by
      rw [gradeSegment_ofCodes (fits pair member)]
      exact CodeIndex.exists_get rfl distinct (grade pair member)
    highSegment := fun pair member => by
      rw [highSegment_ofCodes (fits pair member)]
      exact CodeIndex.exists_get rfl distinct' (high pair member)
    sameGrade := fun pair member other member' => by
      rw [gradeSegment_ofCodes (fits pair member), gradeSegment_ofCodes (fits other member'),
        CodeIndex.get_eq_get_iff rfl distinct (grade pair member),
        SegmentIndexer.gradeCode_eq_iff (fits pair member) (fits other member')]
    sameHigh := fun pair member other member' => by
      rw [highSegment_ofCodes (fits pair member), highSegment_ofCodes (fits other member'),
        CodeIndex.get_eq_get_iff rfl distinct' (high pair member),
        SegmentIndexer.highCode_eq_iff (fits pair member) (fits other member')] }

/-- Districts that fit are laid out over the distinct codes of each family. -/
theorem build_of_fits (fits : ∀ zone ∈ zones, indexer.Fits zone.2) :
    build indexer zones = .ok (ofCodes indexer
      (distinctCodes ((zones.map (·.2)).map indexer.gradeCode))
      (distinctCodes ((zones.map (·.2)).map indexer.highCode))) := by
  rw [build_eq_layOut, codesOf_eq_ok_iff.mpr ⟨fits, rfl⟩,
    ← layOut_eq indexer (pairwise_distinctCodes _) (pairwise_distinctCodes _)]
  change layOut indexer (distinctCodes (((zones.map _).map _).map _)) (distinctCodes (((zones.map _).map _).map _)) = _
  simp only [List.map_map, Function.comp_def]

/-- Segments that are built are those of the distinct codes of districts that fit. -/
theorem build_eq_ok (built : build indexer zones = .ok school) :
    (∀ zone ∈ zones, indexer.Fits zone.2) ∧ school = ofCodes indexer
      (distinctCodes ((zones.map (·.2)).map indexer.gradeCode))
      (distinctCodes ((zones.map (·.2)).map indexer.highCode)) := by
  obtain ⟨codes, given, -⟩ := bind_eq_ok (build_eq_layOut indexer zones ▸ built)
  have fits := (codesOf_eq_ok_iff.mp given).1
  rw [build_of_fits fits] at built
  exact ⟨fits, (Except.ok.inj built).symm⟩

/-- Segments that are built are laid out. -/
theorem layout_of_build (built : build indexer zones = .ok school) :
    ∃ grades highs, Layout indexer (zones.map (·.2)) grades highs school := by
  obtain ⟨fits, rfl⟩ := build_eq_ok built
  refine ⟨_, _, layout_ofCodes (fun pair member => ?_) (pairwise_distinctCodes _) (pairwise_distinctCodes _)
    (fun code => mem_distinctCodes.trans List.mem_map) (fun code => mem_distinctCodes.trans List.mem_map)⟩
  obtain ⟨zone, listed, rfl⟩ := List.mem_map.mp member
  exact fits zone listed

/-- The segments of the five values of a zone. -/
def cells (school : SchoolSegments) (grade high : Nat) : List Nat :=
  [school.preschool, grade, high, school.univTypical, school.univNonTypical]

/-- The five segments of districts: those that they lead to, all different, and inside the table. -/
structure OwnCells (school : SchoolSegments) (districts : Districts) (grade high : Nat) : Prop where
  gradeSegment : school.gradeSegment districts = .ok grade
  highSegment : school.highSegment districts = .ok high
  distinct : (school.cells grade high).Nodup
  within : ∀ cell ∈ school.cells grade high, cell < school.size

/-- Listed districts have five segments of their own. -/
theorem exists_ownCells (built : build indexer zones = .ok school) {zone : UInt32 × Districts}
    (member : zone ∈ zones) : ∃ grade high, school.OwnCells zone.2 grade high := by
  obtain ⟨grades, highs, layout⟩ := layout_of_build built
  have listed := List.mem_map_of_mem (f := Prod.snd) member
  obtain ⟨grade, led, low, up⟩ := layout.gradeSegment _ listed
  obtain ⟨high, led', low', up'⟩ := layout.highSegment _ listed
  refine ⟨grade, high, led, led', ?_, ?_⟩
  -- Preschool, the two blocks and the university follow each other in the layout.
  · simp only [cells, layout.preschool, layout.univTypical, layout.univNonTypical, List.nodup_cons, List.mem_cons,
      List.not_mem_nil, or_false, not_false_eq_true, List.nodup_nil, and_true]
    omega
  · simp only [cells, layout.preschool, layout.univTypical, layout.univNonTypical, layout.size, List.forall_mem_cons]
    refine ⟨by omega, by omega, by omega, by omega, by omega, nofun⟩

/-- What a build of school segments makes of zones, under any offset. It succeeds exactly if all districts are
below the offset and unified ones fit on top of it, and otherwise says of some zone that they do not; names
never clash. What it lays out then is one segment per code and family, in order, with the fixed ones around. -/
theorem build_lays_out (indexer : SegmentIndexer) (zones : List (UInt32 × Districts)) :
    ((∃ school, build indexer zones = .ok school) ↔ ∀ zone ∈ zones, indexer.Fits zone.2) ∧
    (∀ fault, build indexer zones = .error fault → ∃ zone ∈ zones, indexer.Refuses zone.1 zone.2 fault) ∧
    ∀ school, build indexer zones = .ok school →
      ∃ grades highs, Layout indexer (zones.map (·.2)) grades highs school := by
  by_cases fits : ∀ zone ∈ zones, indexer.Fits zone.2
  · rw [build_of_fits fits]
    refine ⟨⟨fun _ => fits, fun _ => ⟨_, rfl⟩⟩, nofun, ?_⟩
    rintro _ ⟨⟩
    refine ⟨_, _, layout_ofCodes ?_ (pairwise_distinctCodes _) (pairwise_distinctCodes _) ?_ ?_⟩
    · intro pair member
      obtain ⟨zone, listed, rfl⟩ := List.mem_map.mp member
      exact fits zone listed
    · exact fun code => mem_distinctCodes.trans List.mem_map
    · exact fun code => mem_distinctCodes.trans List.mem_map
  · cases given : codesOf indexer zones with
    | ok codes => exact absurd (codesOf_eq_ok_iff.mp given).1 fits
    | error fault =>
      rw [build_eq_layOut, given]
      refine ⟨⟨nofun, fun each => absurd each fits⟩, ?_, nofun⟩
      rintro _ ⟨⟩
      exact refused_of_codesOf given

/-- Two districts with a zone of a third that is unified, and a district that the offset is too low for. -/
theorem build_lays_out_unified :
    (∃ school grades highs,
      build .standard [(1, ⟨4, 20⟩), (2, ⟨3, 20⟩), (3, ⟨0, 21⟩), (4, ⟨4, 22⟩)] = .ok school ∧
        Layout .standard [⟨4, 20⟩, ⟨3, 20⟩, ⟨0, 21⟩, ⟨4, 22⟩] grades highs school ∧
          school.gradeSegment ⟨4, 20⟩ = school.gradeSegment ⟨4, 22⟩) ∧
    ∃ fault, build ⟨10⟩ [(1, ⟨4, 5⟩), (2, ⟨3, 10⟩)] = .error fault ∧ SegmentIndexer.Refuses ⟨10⟩ 2 ⟨3, 10⟩ fault := by
  constructor
  · obtain ⟨built, -, lays⟩ := build_lays_out .standard [(1, ⟨4, 20⟩), (2, ⟨3, 20⟩), (3, ⟨0, 21⟩), (4, ⟨4, 22⟩)]
    obtain ⟨school, laid⟩ := built.mpr (by decide)
    obtain ⟨grades, highs, layout⟩ := lays school laid
    refine ⟨school, grades, highs, laid, layout, (layout.sameGrade ⟨4, 20⟩ ?_ ⟨4, 22⟩ ?_).mpr ?_⟩
    all_goals decide
  · obtain ⟨built, refused, -⟩ := build_lays_out ⟨10⟩ [(1, ⟨4, 5⟩), (2, ⟨3, 10⟩)]
    cases outcome : build ⟨10⟩ [(1, ⟨4, 5⟩), (2, ⟨3, 10⟩)] with
    | ok school => exact absurd (built.mp ⟨school, outcome⟩) (by decide)
    | error fault =>
      obtain ⟨zone, listed, refuses⟩ := refused fault outcome
      refine ⟨fault, rfl, ?_⟩
      obtain rfl | rfl : zone = (1, ⟨4, 5⟩) ∨ zone = (2, ⟨3, 10⟩) := by simpa using listed
      · cases refuses with
        | tooLarge above => exact absurd above (by decide)
        | overflow unified => exact absurd unified (by decide)
      · exact refuses

end SchoolSegments

end Accessibility
