import Accessibility.Proofs.Segment.Districts

/-! School segments of a set of districts. The codes of a list of zones are there exactly where its
districts fit, and are then the codes of those (`codesOf_eq_ok_iff`). What is laid out from them reads
the distinct codes of each family only, so the segments depend on which districts occur, and on nothing
else of the zones. -/
namespace Accessibility.SchoolSegments

variable {indexer : SegmentIndexer} {zones zones' : List (UInt32 × Districts)} {all : List (UInt32 × UInt32)}

/-- Zones of the same districts have the same codes, whatever their order and number. -/
theorem codesOf_of_same (same : ∀ districts, districts ∈ zones.map (·.2) ↔
      districts ∈ zones'.map (·.2)) (given : codesOf indexer zones = .ok all) :
    ∃ all', codesOf indexer zones' = .ok all' ∧ ∀ codes, codes ∈ all ↔ codes ∈ all' := by
  obtain ⟨fits, rfl⟩ := codesOf_eq_ok_iff.mp given
  have fits' : ∀ zone ∈ zones', indexer.Fits zone.2 := by
    intro zone member
    obtain ⟨other, member, districts⟩ :=
      List.mem_map.mp ((same zone.2).mpr (List.mem_map_of_mem member))
    exact districts ▸ fits other member
  refine ⟨_, codesOf_eq_ok_iff.mpr ⟨fits', rfl⟩, fun codes => ?_⟩
  rw [List.mem_map, List.mem_map]
  simp only [same]

/-- The segments laid out over the distinct codes of the two families. -/
def layOut (indexer : SegmentIndexer) (gradeCodes highCodes : List UInt32) :
    Outcome SchoolSegments := do
  let table ← SegmentTable.empty.push SchoolLabels.preschool none
  let (table, grade) ← indexer.appendCodes SchoolLabels.grade table
    (.empty "grade school district") gradeCodes
  let (table, high) ← indexer.appendCodes SchoolLabels.high table
    (.empty "high school district") highCodes
  let typical := table.size
  let table ← table.push SchoolLabels.univTypical none
  let table ← table.push SchoolLabels.univNonTypical none
  return {
    indexer, table, grade, high
    preschool := 0
    univTypical := typical
    univNonTypical := typical + 1 }

theorem build_eq_layOut (indexer : SegmentIndexer) (zones : List (UInt32 × Districts)) :
    build indexer zones = codesOf indexer zones >>= fun codes =>
      layOut indexer (distinctCodes (codes.map (·.1))) (distinctCodes (codes.map (·.2))) :=
  rfl

/-- Segments that are built for some zones are built for all zones of the same districts. -/
theorem build_of_same {school : SchoolSegments}
    (same : ∀ districts, districts ∈ zones.map (·.2) ↔ districts ∈ zones'.map (·.2))
    (built : build indexer zones = .ok school) : build indexer zones' = .ok school := by
  rw [build_eq_layOut] at built
  obtain ⟨codes, given, built⟩ := bind_eq_ok built
  obtain ⟨codes', given', members⟩ := codesOf_of_same same given
  have family (side : UInt32 × UInt32 → UInt32) :
      distinctCodes (codes'.map side) = distinctCodes (codes.map side) :=
    distinctCodes_eq fun code => by simp only [List.mem_map, members]
  rw [build_eq_layOut, given']
  change layOut indexer _ _ = _
  rw [family, family]
  exact built

/-- Segment indices depend on no more than the set of codes. Two assignments of the same codes have
the same segments, or the same fault; zones of the same districts either have the same school
segments or have none. -/
theorem segments_same_of_same_codes :
    (∀ (indexer : SegmentIndexer) (reserved : List String) (labels : CodeLabels)
      (assignment assignment' : List (UInt32 × UInt32)),
      (∀ code, code ∈ assignment.map (·.2) ↔ code ∈ assignment'.map (·.2)) →
        indexer.buildSegments reserved assignment labels =
          indexer.buildSegments reserved assignment' labels) ∧
      ∀ (indexer : SegmentIndexer) (zones zones' : List (UInt32 × Districts)),
        (∀ districts, districts ∈ zones.map (·.2) ↔ districts ∈ zones'.map (·.2)) →
          (∃ school, build indexer zones = .ok school ∧ build indexer zones' = .ok school) ∨
            ∃ fault fault', build indexer zones = .error fault ∧
              build indexer zones' = .error fault' := by
  constructor
  · intro indexer reserved labels assignment assignment' same
    exact SegmentIndexer.buildSegments_eq same indexer reserved labels
  · intro indexer zones zones' same
    cases built : build indexer zones with
    | ok school => exact .inl ⟨school, rfl, build_of_same same built⟩
    | error fault =>
      cases built' : build indexer zones' with
      | error fault' => exact .inr ⟨fault, fault', rfl, rfl⟩
      | ok school =>
        cases built.symm.trans (build_of_same (fun districts => (same districts).symm) built')

theorem segments_same_of_same_codes_reordered :
    SegmentIndexer.standard.buildSegments ["preschool"] [(1, 40), (2, 7), (4, 7)]
        ⟨"district", "unified"⟩ =
      SegmentIndexer.standard.buildSegments ["preschool"] [(9, 7), (5, 40)]
        ⟨"district", "unified"⟩ ∧
      ∃ school, build .standard [(1, ⟨3, 5⟩), (2, ⟨0, 4⟩), (6, ⟨3, 5⟩)] = .ok school ∧
        build .standard [(7, ⟨0, 4⟩), (8, ⟨3, 5⟩)] = .ok school := by
  refine ⟨segments_same_of_same_codes.1 .standard ["preschool"] ⟨"district", "unified"⟩
    [(1, 40), (2, 7), (4, 7)] [(9, 7), (5, 40)] ?_, ?_⟩
  · intro code
    simp [or_comm]
  · have either := segments_same_of_same_codes.2 .standard
      [(1, ⟨3, 5⟩), (2, ⟨0, 4⟩), (6, ⟨3, 5⟩)] [(7, ⟨0, 4⟩), (8, ⟨3, 5⟩)] (fun districts => by
        simp only [List.map_cons, List.map_nil, List.mem_cons, List.not_mem_nil, or_false]
        tauto)
    refine either.resolve_right ?_
    rintro ⟨fault, fault', failed, _⟩
    have done : (build .standard [(1, ⟨3, 5⟩), (2, ⟨0, 4⟩), (6, ⟨3, 5⟩)]).isOk = true := by
      decide +kernel
    rw [failed] at done
    cases done

end Accessibility.SchoolSegments
