import Std.Data.HashMap
import Accessibility.Cache.Dense

/-! The utility cache: write-once maps shared by all workers of a run. Path
utilities are kept by slot and packed pair; dense walk and drive utilities between
zones and taps by their cell. The first value written under a key stays, and every
later write gets it back, so two producers of one value never disagree. A key
outside the dimensions is refused and changes nothing, the counters included. -/
namespace Accessibility

structure UtilityCache where
  spec : CacheSpec
  /-- Path utilities of every slot, by packed pair. -/
  paths : Array (Std.HashMap Nat Utilities)
  dense : DenseGrids
  /-- Lookups that found a value. The counters are not bounded: one of 64 bits comes round after more
  lookups than any run makes. -/
  hits : Nat
  /-- Lookups that found none. -/
  misses : Nat

/-- What a cache counts. -/
structure CacheStats where
  entries : Nat
  hits : Nat
  misses : Nat
  deriving DecidableEq, Repr

namespace UtilityCache

/-- A cache in which nothing is stored yet. -/
def empty (spec : CacheSpec) : UtilityCache where
  spec := spec
  paths := Array.replicate (spec.segments.toNat * spec.periods.toNat) ∅
  dense := .empty (spec.maxZone.toNat + 1) (spec.maxTap.toNat + 1)
  hits := 0
  misses := 0

/-- An empty cache of valid dimensions. -/
def create (spec : CacheSpec) : Outcome UtilityCache := do
  spec.validate
  return empty spec

/-- Where a key's value is kept: its slot and its packed pair. -/
def place (spec : CacheSpec) (key : UtilityKey) : Outcome (Nat × Nat) :=
  if spec.segments ≤ key.segment || spec.periods ≤ key.period then
    .error (Cache.Refusal.noSlot key spec).fault
  else if spec.maxEndpoint < key.origin || spec.maxEndpoint < key.destination then
    .error (Cache.Refusal.outsideBound key spec.maxEndpoint).fault
  else
    .ok (key.segment.toNat * spec.periods.toNat + key.period.toNat, key.pairKey)

/-- The value of a key, if one is stored; the lookup is counted. -/
def get (cache : UtilityCache) (key : UtilityKey) : Outcome (Option Utilities) × UtilityCache :=
  match place cache.spec key with
  | .error fault => (.error fault, cache)
  | .ok (slot, pair) =>
    match cache.paths[slot]? with
    | none => (.error .outOfBounds, cache)
    | some values =>
      match values[pair]? with
      | some value => (.ok (some value), { cache with hits := cache.hits + 1 })
      | none => (.ok none, { cache with misses := cache.misses + 1 })

/-- Stores a value unless the key has one, and gives back the one it then has. -/
def put (cache : UtilityCache) (key : UtilityKey) (value : Utilities) :
    Outcome Utilities × UtilityCache :=
  match place cache.spec key with
  | .error fault => (.error fault, cache)
  | .ok (slot, pair) =>
    match cache.paths[slot]? with
    | none => (.error .outOfBounds, cache)
    | some values =>
      match values[pair]? with
      | some stored => (.ok stored, cache)
      | none => (.ok value, { cache with paths := cache.paths.modify slot (·.insert pair value) })

/-- The value of a key, computed and stored when there is none. A computation that
fails stores nothing. It may do more than give a value; it does nothing unless the key is
accepted and has none. -/
def getOrCompute {τ : Type} (cache : UtilityCache) (key : UtilityKey)
    (compute : StateM τ (Outcome Utilities)) : StateM τ (Outcome Utilities × UtilityCache) :=
  match cache.get key with
  | (.error fault, cache) => pure (.error fault, cache)
  | (.ok (some value), cache) => pure (.ok value, cache)
  | (.ok none, cache) => do
    match ← compute with
    | .error fault => pure (.error fault, cache)
    | .ok value => pure (cache.put key value)

/-- Row and column of a dense cell, if it lies in its grid. -/
def densePosition (cache : UtilityCache) (mode : AccessMode) (leg : Leg) (zone tap : UInt32) :
    Outcome (Nat × Nat) :=
  let (row, column) := leg.position zone tap
  if (cache.dense.grid mode leg).inRange row column then .ok (row, column)
  else .error (Cache.Refusal.outsideDense mode leg zone tap cache.spec).fault

/-- The utilities of a dense cell, if they are stored. -/
def getDense (cache : UtilityCache) (mode : AccessMode) (leg : Leg) (zone tap : UInt32) :
    Outcome (Option Utilities) := do
  let (row, column) ← cache.densePosition mode leg zone tap
  return (cache.dense.grid mode leg).get? row column

/-- Stores the utilities of a dense cell unless it has some, and gives back those it
then has. -/
def putDense (cache : UtilityCache) (mode : AccessMode) (leg : Leg) (zone tap : UInt32)
    (value : Utilities) : Outcome Utilities × UtilityCache :=
  match cache.densePosition mode leg zone tap with
  | .error fault => (.error fault, cache)
  | .ok (row, column) =>
    match (cache.dense.grid mode leg).put row column value with
    | (some visible, grid) => (.ok visible, { cache with dense := cache.dense.setGrid mode leg grid })
    | (none, grid) =>
      (.error (Cache.Refusal.noCell leg zone tap).fault,
        { cache with dense := cache.dense.setGrid mode leg grid })

/-- Number of path entries over all slots. -/
def entries (cache : UtilityCache) : Nat :=
  cache.paths.toList.foldr (fun values count => values.size + count) 0

def stats (cache : UtilityCache) : CacheStats := ⟨cache.entries, cache.hits, cache.misses⟩

end UtilityCache

end Accessibility
