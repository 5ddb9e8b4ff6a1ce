import Accessibility.Fault
import Accessibility.Number.Elementary

/-! The zone universe: records in ascending order of their ids, a sparse subset of
`[0, maxZone]`. A system built from records has distinct ids, one value per
attribute name in every zone, and district codes below the offset that marks unified
districts; a system received with a job is taken as it comes. -/
namespace Accessibility

/-- What is added to a district code to mark a unified district. -/
def unifiedDistrictOffset : UInt32 := 1000000

/-- The grade-school and high-school districts of a zone. A zero grade-school
district means that the high-school district is unified. -/
structure Districts where
  grade : UInt32
  high : UInt32
  deriving DecidableEq, Repr, Inhabited

/-- One zone. -/
structure Zone where
  id : UInt32
  x : Double
  y : Double
  districts : Districts
  /-- Values in the order of the system's attribute names. -/
  attributes : List Double
  deriving DecidableEq, Repr, Inhabited

/-- The zones of a run with the names of their attributes. -/
structure ZoneSystem where
  attributeNames : List String
  zones : Array Zone
  deriving DecidableEq, Repr, Inhabited

namespace ZoneSystem

/-- Why records make no zone system, or an id names no zone. -/
inductive Refusal where
  | listedTwice (zone : UInt32)
  | wrongWidth (zone : UInt32) (found expected : Nat)
  | districtTooLarge (zone : UInt32)
  | unknownZone (zone : UInt32)
  deriving DecidableEq, Repr

def Refusal.fault : Refusal → Fault
  | listedTwice zone => .invalidInput s!"zone {zone} listed more than once"
  | wrongWidth zone found expected =>
    .invalidInput s!"zone {zone} has {found} attributes, expected {expected}"
  | districtTooLarge zone =>
    .configuration s!"zone {zone}: district codes must be below {unifiedDistrictOffset}"
  | unknownZone zone => .lookup s!"zone {zone} is not in the zone system"

/-- The first id that stands twice in a row. -/
def repeated? : List Zone → Option UInt32
  | a :: b :: rest => if a.id = b.id then some a.id else repeated? (b :: rest)
  | _ => none

/-- What is wrong with one record, if anything. -/
def flaw? (width : Nat) (zone : Zone) : Option Refusal :=
  if zone.attributes.length ≠ width then
    some (.wrongWidth zone.id zone.attributes.length width)
  else if unifiedDistrictOffset ≤ zone.districts.grade
      || unifiedDistrictOffset ≤ zone.districts.high then
    some (.districtTooLarge zone.id)
  else none

/-- Records in ascending order of their ids. -/
def ordered (zones : List Zone) : List Zone := zones.mergeSort fun a b => a.id ≤ b.id

/-- The system of a list of records in any order. A repeated id is reported before
anything else, and after that the flaw of the lowest id. -/
def ofZones (attributeNames : List String) (zones : List Zone) : Outcome ZoneSystem :=
  let sorted := ordered zones
  match repeated? sorted with
  | some id => .error (Refusal.listedTwice id).fault
  | none =>
    match sorted.findSome? (flaw? attributeNames.length) with
    | some refusal => .error refusal.fault
    | none => .ok ⟨attributeNames, sorted.toArray⟩

def size (system : ZoneSystem) : Nat := system.zones.size

/-- The highest zone id, zero for an empty system. -/
def maxZone (system : ZoneSystem) : UInt32 :=
  match system.zones.back? with
  | some zone => zone.id
  | none => 0

/-- The ordered zone list that packets index. -/
def zoneIds (system : ZoneSystem) : Array UInt32 := system.zones.map (·.id)

/-- Halves the stretch of `length` zones from `base` on until one is left: the upper
half is kept unless its first id exceeds `id`. In a sorted system the place left is
that of the greatest id not above `id`. -/
def narrow (zones : Array Zone) (id : UInt32) (base length : Nat) : Nat :=
  if h : 1 < length then
    let middle := base + length / 2
    let above : Bool := match zones[middle]? with
      | some zone => id < zone.id
      | none => false
    narrow zones id (if above then base else middle) (length - length / 2)
  else base
termination_by length
decreasing_by omega

/-- The zone with the given id, by halving. -/
def find? (system : ZoneSystem) (id : UInt32) : Option Zone :=
  match system.zones[narrow system.zones id 0 system.zones.size]? with
  | some zone => if zone.id = id then some zone else none
  | none => none

def contains (system : ZoneSystem) (id : UInt32) : Bool := (system.find? id).isSome

/-- The zone with the given id, which has to be there. -/
def zone (system : ZoneSystem) (id : UInt32) : Outcome Zone :=
  match system.find? id with
  | some zone => .ok zone
  | none => .error (Refusal.unknownZone id).fault

/-- Position of an attribute name. -/
def attributeIndex (system : ZoneSystem) (name : String) : Outcome Nat :=
  match system.attributeNames.findIdx? (· = name) with
  | some index => .ok index
  | none => .error (Fault.unknownName "zone attribute" name system.attributeNames)

/-- Value of a named attribute in a zone. The name is looked up before the zone. -/
def attributeOf (system : ZoneSystem) (id : UInt32) (name : String) : Outcome Double := do
  let index ← system.attributeIndex name
  let zone ← system.zone id
  match zone.attributes[index]? with
  | some value => .ok value
  | none => .error .outOfBounds

/-- Every zone's id and districts. -/
def districts (system : ZoneSystem) : List (UInt32 × Districts) :=
  system.zones.toList.map fun zone => (zone.id, zone.districts)

/-- Straight-line distance between two zones. -/
def distance (system : ZoneSystem) (origin destination : UInt32) : Outcome Double := do
  let a ← system.zone origin
  let b ← system.zone destination
  .ok ((a.x - b.x).hypot (a.y - b.y))

end ZoneSystem

end Accessibility
