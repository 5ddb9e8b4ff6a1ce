import Accessibility.Segment.Table
import Accessibility.Zone.System

/-! Turning raw codes into segments. Codes are sorted and each counts once before
indices are given out, so the indices depend only on the set of codes that occurs.
Codes at or above the offset mark unified districts; the offset is taken off again
for the name, and the label tells the two kinds apart. -/
namespace Accessibility

/-- Labels that segments built from codes are named with. -/
structure CodeLabels where
  plain : String
  unified : String
  deriving DecidableEq, Repr

/-- A code put in its place in an ascending list, unless it is there already. -/
def insertCode (code : UInt32) : List UInt32 → List UInt32
  | [] => [code]
  | c :: rest =>
    if code < c then code :: c :: rest
    else if code = c then c :: rest
    else c :: insertCode code rest

/-- The distinct codes of a list, ascending. -/
def distinctCodes (codes : List UInt32) : List UInt32 :=
  codes.foldl (fun sorted code => insertCode code sorted) []

/-- Gives segment indices to codes. -/
structure SegmentIndexer where
  offset : UInt32
  deriving DecidableEq, Repr

namespace SegmentIndexer

/-- The indexer with the customary offset. -/
def standard : SegmentIndexer := ⟨unifiedDistrictOffset⟩

/-- Grade-school and high-school codes of a pair of districts. A zero grade-school
district makes both of them the offset plus the high-school district. -/
def districtCodes (indexer : SegmentIndexer) (districts : Districts) : Outcome (UInt32 × UInt32) :=
  if districts.grade ≠ 0 then .ok (districts.grade, districts.high)
  else if indexer.offset.toNat + districts.high.toNat < UInt32.size then
    let unified := indexer.offset + districts.high
    .ok (unified, unified)
  else .error (Segment.Refusal.unifiedOverflow districts.high indexer.offset).fault

/-- Display name of a code. -/
def segmentName (indexer : SegmentIndexer) (labels : CodeLabels) (code : UInt32) : String :=
  if indexer.offset ≤ code then s!"{labels.unified}_{code - indexer.offset}"
  else s!"{labels.plain}_{code}"

/-- One more segment per code, in the order given, with the index that leads to
them. -/
def appendCodes (indexer : SegmentIndexer) (labels : CodeLabels) (table : SegmentTable)
    (index : CodeIndex) : List UInt32 → Outcome (SegmentTable × CodeIndex)
  | [] => .ok (table, index)
  | code :: rest => do
    let next ← table.push (indexer.segmentName labels code) (some code)
    indexer.appendCodes labels next
      { index with entries := index.entries ++ [(code, table.size)] } rest

/-- Appends segments without a code. -/
def appendReserved (table : SegmentTable) (names : List String) : Outcome SegmentTable :=
  names.foldlM (fun table name => table.push name none) table

/-- Segments of an assignment of codes to zones: the reserved names first, then one
segment per distinct code in ascending order. -/
def buildSegments (indexer : SegmentIndexer) (reserved : List String)
    (assignment : List (UInt32 × UInt32)) (labels : CodeLabels) : Outcome SegmentTable := do
  let table ← appendReserved .empty reserved
  let codes := distinctCodes (assignment.map (·.2))
  let (table, index) ← indexer.appendCodes labels table (.empty labels.plain) codes
  return { table with codes := index }

end SegmentIndexer

end Accessibility
