import Accessibility.Fault

/-! Dimensions of a run's utility cache and the keys into it. A pair of ids is
packed into one number, so both sides must stay below the packing factor; segments
and periods span a bounded number of slots. -/
namespace Accessibility

/-- Multiplier that packs an origin and a destination into one number. -/
def pairFactor : Nat := 100000

/-- Most slots a cache may have. -/
def maxCacheSlots : Nat := 4096

/-- Dimensions of a cache, fixed before anything is computed. -/
structure CacheSpec where
  maxZone : UInt32
  maxTap : UInt32
  segments : UInt32
  periods : UInt32
  deriving DecidableEq, Repr, Inhabited

/-- Key of one vector of path utilities. -/
structure UtilityKey where
  segment : UInt32
  period : UInt32
  origin : UInt32
  destination : UInt32
  deriving DecidableEq, Repr, Inhabited

/-- How a tap is reached or left. -/
inductive AccessMode where
  | walk
  | drive
  deriving DecidableEq, Repr

/-- Which end of a transit trip a dense cell belongs to. -/
inductive Leg where
  | access
  | egress
  deriving DecidableEq, Repr

namespace Cache

/-- Why a cache cannot be set up, or a key lies outside it. -/
inductive Refusal where
  | zoneTooLarge (zone : UInt32)
  | tapTooLarge (tap : UInt32)
  | noSlots (segments periods : UInt32)
  | tooManySlots (segments periods : UInt32)
  | noSlot (key : UtilityKey) (spec : CacheSpec)
  | outsideBound (key : UtilityKey) (bound : UInt32)
  | outsideDense (mode : AccessMode) (leg : Leg) (zone tap : UInt32) (spec : CacheSpec)
  | noCell (leg : Leg) (zone tap : UInt32)
  deriving DecidableEq, Repr

def modeName : AccessMode → String
  | .walk => "Walk"
  | .drive => "Drive"

def legName : Leg → String
  | .access => "Access"
  | .egress => "Egress"

def Refusal.fault : Refusal → Fault
  | zoneTooLarge zone =>
    .configuration s!"max zone {zone} does not fit the pair key (must be < {pairFactor})"
  | tapTooLarge tap =>
    .configuration s!"max tap {tap} does not fit the pair key (must be < {pairFactor})"
  | noSlots segments periods =>
    .configuration s!"cache needs at least one segment and one period (got {segments} x {periods})"
  | tooManySlots segments periods =>
    .configuration s!"{segments} segments x {periods} periods exceeds {maxCacheSlots} cache slots"
  | noSlot key spec =>
    .lookup s!"cache has no segment {key.segment} / period {key.period} (configured {spec.segments} x {spec.periods})"
  | outsideBound key bound =>
    .lookup s!"pair {key.origin} -> {key.destination} outside cache bound {bound}"
  | outsideDense mode leg zone tap spec =>
    .lookup s!"{modeName mode} {legName leg} pair zone {zone} / tap {tap} outside max zone {spec.maxZone} / max tap {spec.maxTap}"
  | noCell leg zone tap => .lookup s!"{legName leg} cell zone {zone} / tap {tap} missing"

end Cache

namespace CacheSpec

/-- Number of slots, one for each segment and period. -/
def slotCount (spec : CacheSpec) : Outcome Nat :=
  let slots := spec.segments.toNat * spec.periods.toNat
  if maxCacheSlots < slots then
    .error (Cache.Refusal.tooManySlots spec.segments spec.periods).fault
  else .ok slots

/-- Checks that a cache of these dimensions can be built. -/
def validate (spec : CacheSpec) : Outcome Unit := do
  if pairFactor ≤ spec.maxZone.toNat then throw (Cache.Refusal.zoneTooLarge spec.maxZone).fault
  if pairFactor ≤ spec.maxTap.toNat then throw (Cache.Refusal.tapTooLarge spec.maxTap).fault
  if spec.segments = 0 || spec.periods = 0 then
    throw (Cache.Refusal.noSlots spec.segments spec.periods).fault
  let _ ← spec.slotCount
  return ()

/-- The largest id accepted on either side of a pair. -/
def maxEndpoint (spec : CacheSpec) : UInt32 := max spec.maxZone spec.maxTap

end CacheSpec

namespace UtilityKey

/-- Origin and destination packed into one number. -/
def pairKey (key : UtilityKey) : Nat := key.origin.toNat * pairFactor + key.destination.toNat

end UtilityKey

end Accessibility
