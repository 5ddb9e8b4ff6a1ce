import Accessibility.Packet.Result
import Accessibility.Table.Basic

/-! Merging packet results into one table. The results may come in any order, but
together they have to tile the zone list: sorted by their starts, each begins where
the one before it ended, and the last ends at the end of the list. The row of a
position goes to the zone at that position. -/
namespace Accessibility.AccessibilityTable

/-- Why results make no table. -/
inductive MergeRefusal where
  | misplaced (result : PacketResult) (next : UInt64) (length : Nat)
  | misshapen (result : PacketResult) (rows : UInt64) (alternatives : Nat)
  | beyondTable (zone maxZone : UInt32)
  | incomplete (next : UInt64) (length : Nat)
  deriving DecidableEq, Repr

def MergeRefusal.fault : MergeRefusal → Fault
  | misplaced result next length =>
    .distribution s!"packet {result.packetId} covers [{result.first}, {result.last}] but position {next} is next of {length}"
  | misshapen result rows alternatives =>
    .distribution s!"packet {result.packetId} has {result.values.size} values for {rows} rows of {result.alternatives} alternatives (expected {alternatives})"
  | beyondTable zone maxZone => .lookup s!"zone {zone} exceeds max zone {maxZone}"
  | incomplete next length => .distribution s!"results cover {next} of {length} positions"

/-- Writes the rows of a result to the zones at its positions, starting `offset`
rows in. A row only goes where one of its length is. -/
def placeRows (result : PacketResult) :
    Nat → List UInt32 → AccessibilityTable → Outcome AccessibilityTable
  | _, [], table => .ok table
  | offset, zone :: rest, table => do
    let row ← result.row offset
    match table.setRow? zone row with
    | none => throw (MergeRefusal.beyondTable zone table.maxZone).fault
    | some table =>
      if row.size = table.width then placeRows result (offset + 1) rest table
      else throw .outOfBounds

/-- Checks that a result starts at the next position, lies inside the list and has
the right shape. -/
def checkResult (zones : Array UInt32) (alternatives : Nat) (next : UInt64)
    (result : PacketResult) : Outcome Unit := do
  if result.first ≠ next || result.last < result.first || zones.size ≤ result.last.toNat then
    throw (MergeRefusal.misplaced result next zones.size).fault
  let rows ← result.rowCount
  if result.alternatives ≠ alternatives.toUInt64 then
    throw (MergeRefusal.misshapen result rows alternatives).fault
  let values ← Word.product rows alternatives.toUInt64
  if result.values.size ≠ values.toNat then
    throw (MergeRefusal.misshapen result rows alternatives).fault

/-- Places sorted results one after the other; `next` is the first position not yet
covered. -/
def placeResults (zones : Array UInt32) (alternatives : Nat) :
    UInt64 → List PacketResult → AccessibilityTable → Outcome AccessibilityTable
  | next, [], table =>
    if next.toNat = zones.size then .ok table
    else .error (MergeRefusal.incomplete next zones.size).fault
  | next, result :: rest, table => do
    checkResult zones alternatives next result
    let covered := (zones.extract result.first.toNat (result.last.toNat + 1)).toList
    let table ← placeRows result 0 covered table
    placeResults zones alternatives (result.last + 1) rest table

/-- The table of a job's results over `[0, maxZone]`; ids outside the zone list keep
rows of zeros. -/
def merge (maxZone : UInt32) (alternatives : Nat) (zones : Array UInt32)
    (results : List PacketResult) : Outcome AccessibilityTable :=
  placeResults zones alternatives 0 (results.mergeSort fun a b => a.first ≤ b.first)
    (zeros maxZone alternatives)

end Accessibility.AccessibilityTable
