import Accessibility.Evaluation.Evaluator
import Accessibility.Packet.Range

/-! The utilities of one packet: the zones at its positions are evaluated in order,
each must give one finite number per alternative, and the numbers are kept as
singles, row after row. The first zone that fails ends the packet. -/
namespace Accessibility

/-- Utilities of a packet's rows. -/
structure PacketResult where
  packetId : UInt32
  first : UInt64
  last : UInt64
  /-- Numbers to a row. -/
  alternatives : UInt64
  values : Array Single
  deriving DecidableEq, Repr, Inhabited

namespace PacketResult

/-- Number of positions. -/
def rowCount (result : PacketResult) : Outcome UInt64 := Word.span result.first result.last

/-- The row of the position `offset` places behind the first. -/
def row (result : PacketResult) (offset : Nat) : Outcome (Array Single) :=
  let width := result.alternatives.toNat
  if (offset + 1) * width ≤ result.values.size then
    .ok (result.values.extract (offset * width) ((offset + 1) * width))
  else .error .outOfBounds

end PacketResult

namespace Packet

/-- Why a packet has no result. -/
inductive Flaw where
  | outsideList (packet : Packet) (zones : Nat)
  | wrongWidth (zone : UInt32) (found expected : Nat)
  | notFinite (zone : UInt32) (value : Double)
  deriving DecidableEq, Repr

def Flaw.fault : Flaw → Fault
  | outsideList packet zones =>
    .configuration s!"packet {packet.id} [{packet.first}, {packet.last}] outside the {zones}-zone list"
  | wrongWidth zone found expected =>
    .computation zone s!"evaluator returned {found} values, expected {expected}"
  | notFinite zone value => .computation zone s!"non-finite utility {value.text}"

/-- The zones at a packet's positions. A range that ends just before it starts is an
empty one and lies inside any list that reaches up to its start. -/
def zonesOf (packet : Packet) (zoneIds : Array UInt32) : Outcome (List UInt32) :=
  let past := packet.last.toNat + 1
  if past < UInt64.size && packet.first.toNat ≤ past && past ≤ zoneIds.size then
    .ok (zoneIds.extract packet.first.toNat past).toList
  else .error (Flaw.outsideList packet zoneIds.size).fault

/-- A zone's values as singles, if they are as many as the alternatives and finite. -/
def checkRow (width : Nat) (zone : UInt32) (row : List Double) : Outcome (List Single) :=
  if row.length ≠ width then .error (Flaw.wrongWidth zone row.length width).fault
  else
    match row.find? (!·.isFinite) with
    | some value => .error (Flaw.notFinite zone value).fault
    | none => .ok (row.map Double.toSingle)

/-- Rows of the zones in order, behind those already computed. -/
def computeRows (evaluator : Evaluator) (context : Context) :
    List UInt32 → Array Single → Evaluation (Array Single)
  | [], values => pure values
  | zone :: rest, values => do
    let row ← evaluator.evaluate zone context
    let row ← .ofOutcome (checkRow evaluator.width zone row)
    computeRows evaluator context rest (values ++ row)

/-- Evaluates a packet's zones. -/
def compute (packet : Packet) (zoneIds : Array UInt32) (evaluator : Evaluator)
    (context : Context) : Evaluation PacketResult := do
  let zones ← .ofOutcome (packet.zonesOf zoneIds)
  let values ← computeRows evaluator context zones #[]
  return {
    packetId := packet.id
    first := packet.first
    last := packet.last
    alternatives := evaluator.width.toUInt64
    values }

end Packet

end Accessibility
