import Accessibility.Segment.Indexer

/-! School segments: preschool, then the grade-school districts, then the
high-school districts, then the two kinds of university student. Grade and high
school codes are families of their own, so one district number may stand in both. -/
namespace Accessibility

namespace SchoolLabels

def preschool : String := "preschool"
def grade : CodeLabels := ⟨"k-8", "unified k-8"⟩
def high : CodeLabels := ⟨"9-12", "unified 9-12"⟩
def univTypical : String := "univ typical"
def univNonTypical : String := "univ non-typical"

end SchoolLabels

/-- The school segments of a set of districts. -/
structure SchoolSegments where
  indexer : SegmentIndexer
  table : SegmentTable
  grade : CodeIndex
  high : CodeIndex
  preschool : Nat
  univTypical : Nat
  univNonTypical : Nat
  deriving DecidableEq, Repr

namespace SchoolSegments

/-- Grade and high school codes of all zones, in their order. District codes must
lie below the offset, or plain and unified codes could meet. -/
def codesOf (indexer : SegmentIndexer) :
    List (UInt32 × Districts) → Outcome (List (UInt32 × UInt32))
  | [] => .ok []
  | (zone, districts) :: rest => do
    if indexer.offset ≤ districts.grade || indexer.offset ≤ districts.high then
      throw (Segment.Refusal.districtTooLarge zone indexer.offset).fault
    let codes ← indexer.districtCodes districts
    let others ← codesOf indexer rest
    return codes :: others

/-- The segments of a list of zones with their districts. -/
def build (indexer : SegmentIndexer) (zones : List (UInt32 × Districts)) :
    Outcome SchoolSegments := do
  let codes ← codesOf indexer zones
  let table ← SegmentTable.empty.push SchoolLabels.preschool none
  let (table, grade) ← indexer.appendCodes SchoolLabels.grade table
    (.empty "grade school district") (distinctCodes (codes.map (·.1)))
  let (table, high) ← indexer.appendCodes SchoolLabels.high table
    (.empty "high school district") (distinctCodes (codes.map (·.2)))
  let typical := table.size
  let table ← table.push SchoolLabels.univTypical none
  let table ← table.push SchoolLabels.univNonTypical none
  return {
    indexer, table, grade, high
    preschool := 0
    univTypical := typical
    univNonTypical := typical + 1 }

def size (school : SchoolSegments) : Nat := school.table.size

/-- Grade-school segment of a pair of districts. -/
def gradeSegment (school : SchoolSegments) (districts : Districts) : Outcome Nat := do
  let (code, _) ← school.indexer.districtCodes districts
  school.grade.get code

/-- High-school segment of a pair of districts. -/
def highSegment (school : SchoolSegments) (districts : Districts) : Outcome Nat := do
  let (_, code) ← school.indexer.districtCodes districts
  school.high.get code

def universitySegments (school : SchoolSegments) : List Nat :=
  [school.univTypical, school.univNonTypical]

/-- Preschool and every district segment. -/
def nonUniversitySegments (school : SchoolSegments) : List Nat :=
  school.preschool :: school.grade.segments ++ school.high.segments

/-- Segments that shadow prices leave alone: preschool only. -/
def unpricedSegments (school : SchoolSegments) : List Nat := [school.preschool]

end SchoolSegments

end Accessibility
