import Accessibility.Packet.Result
import Accessibility.Wire.Codec

/-! The messages of a distributed job: a bundle with the job's inputs, sent once to
every node, and a node's reply to each task. Fields are written in the order in
which they are listed here. -/
namespace Accessibility

/-- The inputs of one job. -/
structure JobBundle where
  jobId : UInt64
  alternatives : UInt64
  inputs : JobInputs
  deriving DecidableEq, Repr, Inhabited

/-- A packet to be evaluated in a job. -/
structure PacketTask where
  jobId : UInt64
  packet : Packet
  deriving DecidableEq, Repr, Inhabited

/-- How a task ended on its node. -/
inductive TaskOutcome where
  | completed (result : PacketResult)
  /-- The fault's text, and the zone when the evaluator failed for one. -/
  | failed (zone : Option UInt32) (text : String)
  deriving DecidableEq, Repr, Inhabited

/-- A node's answer to one task. -/
structure TaskReply where
  jobId : UInt64
  packetId : UInt32
  node : UInt64
  outcome : TaskOutcome
  deriving DecidableEq, Repr, Inhabited

/-- The outcome that reports what became of a packet. -/
def TaskOutcome.ofResult : Outcome PacketResult → TaskOutcome
  | .ok result => .completed result
  | .error (.computation zone text) => .failed (some zone) text
  | .error fault => .failed none fault.message

def TaskOutcome.isFailed : TaskOutcome → Bool
  | .failed .. => true
  | .completed _ => false

namespace Wire

instance : Record Districts (UInt32 × UInt32) where
  fields d := (d.grade, d.high)
  ofFields := fun (grade, high) => { grade, high }

instance : Record Zone (UInt32 × Double × Double × Districts × List Double) where
  fields z := (z.id, z.x, z.y, z.districts, z.attributes)
  ofFields := fun (id, x, y, districts, attributes) => { id, x, y, districts, attributes }

instance : Record ZoneSystem (List String × Array Zone) where
  fields s := (s.attributeNames, s.zones)
  ofFields := fun (attributeNames, zones) => { attributeNames, zones }

instance : Record SizeTermTable (List String × UInt32 × Array Double × Array Bool) where
  fields t := (t.segmentNames, t.maxZone, t.values, t.flags)
  ofFields := fun (segmentNames, maxZone, values, flags) =>
    { segmentNames, maxZone, values, flags }

instance : Record ModeConstants (List String × Array Double) where
  fields c := (c.modes, c.values)
  ofFields := fun (modes, values) => { modes, values }

instance : Record CacheSpec (UInt32 × UInt32 × UInt32 × UInt32) where
  fields s := (s.maxZone, s.maxTap, s.segments, s.periods)
  ofFields := fun (maxZone, maxTap, segments, periods) => { maxZone, maxTap, segments, periods }

instance : Record JobInputs (ZoneSystem × SizeTermTable × ModeConstants × CacheSpec) where
  fields i := (i.zones, i.sizeTerms, i.constants, i.cacheSpec)
  ofFields := fun (zones, sizeTerms, constants, cacheSpec) =>
    { zones, sizeTerms, constants, cacheSpec }

instance : Record JobBundle (UInt64 × UInt64 × JobInputs) where
  fields b := (b.jobId, b.alternatives, b.inputs)
  ofFields := fun (jobId, alternatives, inputs) => { jobId, alternatives, inputs }

instance : Record PacketResult (UInt32 × UInt64 × UInt64 × UInt64 × Array Single) where
  fields r := (r.packetId, r.first, r.last, r.alternatives, r.values)
  ofFields := fun (packetId, first, last, alternatives, values) =>
    { packetId, first, last, alternatives, values }

/-- The number of the choice stands in front of its fields. -/
instance : Wire TaskOutcome where
  encode
    | .completed result => Wire.encode (0 : UInt32) ++ Wire.encode result
    | .failed zone text => Wire.encode (1 : UInt32) ++ Wire.encode (zone, text)
  decode bytes := do
    let (choice, rest) ← Wire.decode (α := UInt32) bytes
    if choice = 0 then
      (Wire.decode rest).map fun (result, rest) => (.completed result, rest)
    else if choice = 1 then
      (Wire.decode rest).map fun ((zone, text), rest) => (.failed zone text, rest)
    else none

instance : Record TaskReply (UInt64 × UInt32 × UInt64 × TaskOutcome) where
  fields r := (r.jobId, r.packetId, r.node, r.outcome)
  ofFields := fun (jobId, packetId, node, outcome) => { jobId, packetId, node, outcome }

end Wire

end Accessibility
