import Accessibility.Number.Word

/-! Packets: contiguous ranges of positions in the ordered zone list, not of zone
ids. Both ends belong to a packet; the packets of a list follow each other without
gap or overlap, and the last may be shorter. Positions are 64-bit words, and numbers
32-bit ones; a packet that no words hold stops the run. -/
namespace Accessibility

/-- A range of positions with its number, counted from one. -/
structure Packet where
  id : UInt32
  first : UInt64
  last : UInt64
  deriving DecidableEq, Repr, Inhabited

namespace Packet

/-- The number of zones to a packet when nothing else is configured. -/
def defaultSize : UInt64 := 1000

/-- Number of positions. -/
def rowCount (packet : Packet) : Outcome UInt64 := Word.span packet.first packet.last

def contains (packet : Packet) (position : UInt64) : Bool :=
  packet.first ≤ position && position ≤ packet.last

/-- Why a list cannot be cut. -/
inductive Refusal where
  | emptyPackets
  deriving DecidableEq, Repr

def Refusal.fault : Refusal → Fault
  | emptyPackets => .configuration "packet size must be at least 1"

/-- The packet that starts `index` whole packets into a list of `length` positions. -/
def nth (length size : UInt64) (index : Nat) : Outcome Packet := do
  let id ← Word.next index.toUInt32
  let first := index.toUInt64 * size
  let past ← Word.sum first size
  let last ← Word.difference (min past length) 1
  return { id, first, last }

/-- Number of packets that cover a list. -/
def count (length size : UInt64) : Nat := (length.toNat + size.toNat - 1) / size.toNat

/-- The packets of a list of `length` positions, `size` to a packet. -/
def ranges (length size : UInt64) : Outcome (List Packet) :=
  if size = 0 then .error Refusal.emptyPackets.fault
  else (List.range (count length size)).mapM (nth length size)

end Packet

end Accessibility
