import Accessibility.Fault

/-! Size terms: a non-negative weight for every zone and segment, in one flat row
of cells per id, with a flag per id that tells whether it has ever held a positive
weight. Rows are cut out of the flat cells; a table that arrives with fewer cells
than its bounds promise has rows that cannot be cut. -/
namespace Accessibility

structure SizeTermTable where
  segmentNames : List String
  maxZone : UInt32
  values : Array Double
  flags : Array Bool
  deriving DecidableEq, Repr, Inhabited

namespace SizeTermTable

/-- Why a weight cannot be stored. -/
inductive Refusal where
  | beyondTable (zone maxZone : UInt32)
  | noSegment (segment count : Nat)
  | badWeight (zone : UInt32) (segment : String) (value : Double)
  deriving DecidableEq, Repr

def Refusal.fault : Refusal → Fault
  | beyondTable zone maxZone => .lookup s!"zone {zone} beyond size term table (max {maxZone})"
  | noSegment segment count =>
    .lookup s!"size term segment {segment} out of range ({count} segments)"
  | badWeight zone segment value =>
    .computation zone s!"size term for segment '{segment}' is {value.text}"

/-- A table of zero weights over `[0, maxZone]`. -/
def zeros (segmentNames : List String) (maxZone : UInt32) : SizeTermTable where
  segmentNames := segmentNames
  maxZone := maxZone
  values := Array.replicate ((maxZone.toNat + 1) * segmentNames.length) .zero
  flags := Array.replicate (maxZone.toNat + 1) false

/-- Number of segments, the width of a row. -/
def width (table : SizeTermTable) : Nat := table.segmentNames.length

/-- Stores a weight, which must be finite and not negative. A positive weight flags
the zone. -/
def set (table : SizeTermTable) (zone : UInt32) (segment : Nat) (value : Double) :
    Outcome SizeTermTable :=
  if table.maxZone < zone then .error (Refusal.beyondTable zone table.maxZone).fault
  else
    match table.segmentNames[segment]? with
    | none => .error (Refusal.noSegment segment table.width).fault
    | some name =>
      if !value.isFinite || value.isNegative then
        .error (Refusal.badWeight zone name value).fault
      else
        .ok { table with
          values := table.values.setIfInBounds (zone.toNat * table.width + segment) value
          flags :=
            if value.isPositive then table.flags.setIfInBounds zone.toNat true
            else table.flags }

/-- The weights of a zone; none beyond the table. -/
def row (table : SizeTermTable) (zone : UInt32) : Outcome (List Double) :=
  if table.maxZone < zone then .ok []
  else
    let start := zone.toNat * table.width
    if start + table.width ≤ table.values.size then
      .ok (table.values.extract start (start + table.width)).toList
    else .error .outOfBounds

/-- The weight of a zone and segment, zero outside the table. -/
def get (table : SizeTermTable) (zone : UInt32) (segment : Nat) : Outcome Double := do
  let weights ← table.row zone
  return weights[segment]?.getD .zero

/-- Whether a zone has been flagged. -/
def hasSizeTerm (table : SizeTermTable) (zone : UInt32) : Bool :=
  table.flags[zone.toNat]?.getD false

/-- Every id of the table. -/
def ids (table : SizeTermTable) : List UInt32 :=
  (List.range (table.maxZone.toNat + 1)).map Nat.toUInt32

/-- The sum of a segment's weights over all ids, in ascending order. -/
def segmentTotal (table : SizeTermTable) (segment : Nat) : Outcome Double := do
  let weights ← table.ids.mapM fun zone => table.get zone segment
  return Double.sum weights

end SizeTermTable

end Accessibility
