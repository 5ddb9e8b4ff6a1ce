import Accessibility.Evaluation.Evaluator
import Accessibility.Number.Word
import Accessibility.Segment.School
import Accessibility.Segment.Work

/-! What a run computes before it cuts packets: size terms by general, school and
work segments, the factors of the school segments, and the exponentiated constants.
All zones are evaluated first and only then stored, so a zone that cannot be
evaluated is reported before a weight that cannot be stored. Zones left without any
positive weight are worth a notice and no fault. A run consults no cache for all this,
though size terms can be computed over one. -/
namespace Accessibility.Setup

/-- Why an evaluator does not fit what it is asked for. -/
inductive Refusal where
  | wrongAlternatives (what : String) (found expected : Nat)
  | wrongWidth (zone : UInt32) (found expected : Nat)
  | constantWidth (found modes : Nat)
  deriving DecidableEq, Repr

def Refusal.fault : Refusal → Fault
  | wrongAlternatives what found expected =>
    .configuration s!"{what} evaluator has {found} alternatives, expected {expected}"
  | wrongWidth zone found expected =>
    .computation zone s!"evaluator returned {found} values, expected {expected}"
  | constantWidth found modes =>
    .configuration s!"constant evaluator returned {found} values for {modes} modes"

/-- A table with what its computation noticed. -/
structure Noted where
  table : SizeTermTable
  notices : List String
  deriving Repr

/-- A zone's values, if they are as many as are expected. -/
def checkWidth (width : Nat) (zone : UInt32) (values : List Double) : Outcome (List Double) :=
  if values.length = width then .ok values
  else .error (Refusal.wrongWidth zone values.length width).fault

/-- Every zone with its values, in the order given; the first zone that fails is
reported. -/
def evaluateZones (evaluator : Evaluator) (context : Context) (width : Nat) :
    List UInt32 → Evaluation (List (UInt32 × List Double))
  | [] => pure []
  | zone :: rest => do
    let values ← evaluator.evaluate zone context
    let values ← .ofOutcome (checkWidth width zone values)
    let others ← evaluateZones evaluator context width rest
    return (zone, values) :: others

/-- Checks the number of alternatives before anything is evaluated. -/
def checkAlternatives (evaluator : Evaluator) (expected : Nat) (what : String) : Outcome Unit :=
  if evaluator.width = expected then .ok ()
  else .error (Refusal.wrongAlternatives what evaluator.width expected).fault

/-- Stores weights in one row of a table, in the order given. -/
def storeAll (zone : UInt32) (table : SizeTermTable) (weights : List (Nat × Double)) :
    Outcome SizeTermTable :=
  weights.foldlM (fun table (segment, value) => table.set zone segment value) table

/-- Number of zones without a positive weight. -/
def missing (table : SizeTermTable) (zones : ZoneSystem) : Nat :=
  (zones.zones.toList.filter fun zone => !table.hasSizeTerm zone.id).length

/-- The table with a notice when zones are left without a size term. -/
def note (table : SizeTermTable) (zones : ZoneSystem) (what : String) : Noted where
  table := table
  notices :=
    if missing table zones = 0 then []
    else [s!"{missing table zones} of {zones.size} zones have no {what} size term"]

/-- A kind of size terms. -/
structure Kind where
  /-- What notices call it. -/
  name : String
  /-- What faults call its evaluator. -/
  evaluator : String
  segmentNames : List String
  /-- How many values each zone has. -/
  alternatives : Nat
  /-- Stores the values of a zone in the segments that they are for. -/
  store : SizeTermTable → UInt32 × List Double → Outcome SizeTermTable

/-- The size terms of a kind for all zones. -/
def tabulate (kind : Kind) (zones : ZoneSystem) (evaluator : Evaluator) (context : Context) :
    Evaluation Noted := do
  .ofOutcome (checkAlternatives evaluator kind.alternatives kind.evaluator)
  let rows ← evaluateZones evaluator context kind.alternatives zones.zoneIds.toList
  let table ← .ofOutcome (rows.foldlM kind.store (.zeros kind.segmentNames zones.maxZone))
  return note table zones kind.name

/-- General size terms: one alternative of the evaluator for each segment. -/
def general (segmentNames : List String) : Kind where
  name := "general"
  evaluator := "size term"
  segmentNames := segmentNames
  alternatives := segmentNames.length
  store table row := storeAll row.1 table (row.2.mapIdx fun segment value => (segment, value))

/-- General size terms, computed without a cache. -/
def sizeTerms (zones : ZoneSystem) (segmentNames : List String) (evaluator : Evaluator)
    (context : Context) : Outcome Noted :=
  (tabulate (general segmentNames) zones evaluator context).runAlone

/-- Work size terms: one alternative for each occupation. -/
def workSizeTerms (zones : ZoneSystem) (evaluator : Evaluator) (context : Context) :
    Outcome Noted :=
  sizeTerms zones WorkSegments.table.names evaluator context

/-- Number of values a school size evaluator returns: preschool, grade school, high
school, and the two kinds of university student. -/
def schoolAlternatives : Nat := 5

/-- The segments that a zone's five school values belong to, in their order. -/
def schoolCells (school : SchoolSegments) (districts : Districts) : Outcome (List Nat) := do
  let grade ← school.gradeSegment districts
  let high ← school.highSegment districts
  return [school.preschool, grade, high, school.univTypical, school.univNonTypical]

/-- School size terms: grade and high school values go to the segments of the
zone's own districts. -/
def schools (zones : ZoneSystem) (school : SchoolSegments) : Kind where
  name := "school"
  evaluator := "school size term"
  segmentNames := school.table.names
  alternatives := schoolAlternatives
  store table row := do
    let zone ← zones.zone row.1
    let cells ← schoolCells school zone.districts
    storeAll row.1 table (cells.zip row.2)

/-- School size terms, computed without a cache. -/
def schoolSizeTerms (zones : ZoneSystem) (school : SchoolSegments) (evaluator : Evaluator)
    (context : Context) : Outcome Noted :=
  (tabulate (schools zones school) zones evaluator context).runAlone

/-- Scaling factors by zone and school segment, in one flat row of cells per id. -/
structure SegmentFactors where
  segments : Nat
  values : Array Double
  deriving DecidableEq, Repr

/-- The cell at a zone's row and a segment's offset, zero behind the last cell. -/
def SegmentFactors.get (factors : SegmentFactors) (zone : UInt32) (segment : UInt64) :
    Outcome Double := do
  let start ← Word.product zone.toUInt64 factors.segments.toUInt64
  let cell ← Word.sum start segment
  return factors.values[cell.toNat]?.getD .zero

/-- The factor of a university segment: enrollment over the zone's university size,
or zero where that size is zero. -/
def universityFactor (enrollment total : Double) : Double :=
  if total.isZero then .zero else enrollment / total

/-- Writes factors into the row that begins at a cell. -/
def writeFactors (cells : Array Double) (start : Nat) (factors : List (Nat × Double)) :
    Array Double :=
  factors.foldl (fun cells (segment, value) => cells.setIfInBounds (start + segment) value) cells

/-- The factors of one zone by segment. -/
def zoneFactors (sizeTerms : SizeTermTable) (school : SchoolSegments) (enrollmentIndex : Nat)
    (zone : Zone) : Outcome (List (Nat × Double)) := do
  let sizes ← school.universitySegments.mapM fun segment => sizeTerms.get zone.id segment
  match zone.attributes[enrollmentIndex]? with
  | none => throw .outOfBounds
  | some enrollment =>
    let factor := universityFactor enrollment (Double.sum sizes)
    return school.nonUniversitySegments.map (·, .one) ++ school.universitySegments.map (·, factor)

/-- Puts a zone's factors into its row, which has to be there and to hold them all. -/
def placeFactors (sizeTerms : SizeTermTable) (school : SchoolSegments) (enrollmentIndex : Nat)
    (cells : Array Double) (zone : Zone) : Outcome (Array Double) := do
  if sizeTerms.maxZone < zone.id then throw .outOfBounds
  let factors ← zoneFactors sizeTerms school enrollmentIndex zone
  if factors.any fun (segment, _) => sizeTerms.width ≤ segment then throw .outOfBounds
  return writeFactors cells (zone.id.toNat * sizeTerms.width) factors

/-- School segment factors: one for every segment outside the university, and the
enrollment a unit of university size stands for within it. -/
def schoolFactors (sizeTerms : SizeTermTable) (school : SchoolSegments) (zones : ZoneSystem)
    (enrollment : String) : Outcome SegmentFactors := do
  let enrollmentIndex ← zones.attributeIndex enrollment
  let empty := Array.replicate ((sizeTerms.maxZone.toNat + 1) * sizeTerms.width) Double.zero
  let values ← zones.zones.toList.foldlM (placeFactors sizeTerms school enrollmentIndex) empty
  return ⟨sizeTerms.width, values⟩

/-- Exponentiated constants of one market row. -/
def constantsOfMarket (evaluator : Evaluator) (context : Context) (market : Nat) :
    Outcome (List Double) := do
  let row ← (evaluator.evaluate 0 { context with market := some market }).runAlone
  if row.length ≠ evaluator.width then
    throw (Refusal.constantWidth row.length evaluator.width).fault
  return row.map Double.exp

/-- The exponentiated constants of every market row, evaluated for zone zero. -/
def modeConstants (evaluator : Evaluator) (context : Context) : Outcome ModeConstants := do
  let rows ← (List.range (totalMarket + 1)).mapM (constantsOfMarket evaluator context)
  return ⟨evaluator.names, rows.flatten.toArray⟩

end Accessibility.Setup
