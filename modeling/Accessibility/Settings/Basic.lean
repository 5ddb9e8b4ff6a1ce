import Accessibility.ModeConstants
import Accessibility.Packet.Range
import Accessibility.Settings.Properties
import Accessibility.Table.Basic

/-! The settings of a build. Everything is read and checked before anything is
computed; each value is that of its property, or its default where the property is
missing. -/
namespace Accessibility

/-- Where packets are evaluated. -/
inductive Placement where
  /-- By workers within the process. -/
  | inProcess (threads : Nat)
  /-- By nodes that get a copy of the inputs. -/
  | distributed (nodes : Nat)
  deriving DecidableEq, Repr

/-- Cache dimensions that do not depend on the zones. -/
structure CacheDimensions where
  maxTap : UInt32
  segments : UInt32
  periods : UInt32
  deriving DecidableEq, Repr

/-- What to build, from what, and how. -/
structure Settings where
  zoneFile : Path
  outputFile : Path
  indexLabel : String
  packetSize : UInt64
  placement : Placement
  cache : CacheDimensions
  /-- Zone attributes that are the general size terms, one alternative each. -/
  sizeAttributes : List String
  /-- The five school size attributes. -/
  schoolSizeAttributes : Option (List String)
  enrollmentAttribute : Option String
  /-- The six work size attributes, in the order of the occupations. -/
  workSizeAttributes : Option (List String)
  modes : List String
  /-- A row of mode constants for each market segment and one for the total. -/
  constants : List (List Double)
  decay : Double
  marketSegment : Nat
  deriving DecidableEq, Repr

namespace Settings

/-- Why properties are no settings. -/
inductive Refusal where
  | emptyPackets
  | negative (key : String)
  | tooLarge (key : String)
  | entryCount (key : String) (expected found : Nat)
  | noMarket
  deriving DecidableEq, Repr

def Refusal.fault : Refusal → Fault
  | emptyPackets => .configuration "acc.packet_size must be at least 1"
  | negative key => .configuration s!"property '{key}' must not be negative"
  | tooLarge key => .configuration s!"property '{key}' is too large"
  | entryCount key expected found =>
    .configuration s!"{key} needs {expected} entries, found {found}"
  | noMarket => .configuration s!"gravity.market_segment must be in 0..={totalMarket}"

/-- An integer that must not be negative. -/
def natural (properties : Properties) (key : String) (default : Nat) : Outcome Nat := do
  let number ← properties.orDefault properties.integer key default
  if number < 0 then throw (Refusal.negative key).fault
  return number.toNat

/-- An integer that must fit 32 bits. -/
def word (properties : Properties) (key : String) (default : Nat) : Outcome UInt32 := do
  let number ← natural properties key default
  if UInt32.size ≤ number then throw (Refusal.tooLarge key).fault
  return number.toUInt32

/-- The number of zones to a packet. -/
def packetSizeOf (properties : Properties) : Outcome UInt64 := do
  let size ← natural properties "acc.packet_size" Packet.defaultSize.toNat
  if size = 0 then throw Refusal.emptyPackets.fault
  return size.toUInt64

/-- Where packets are evaluated; of the two numbers of workers only the one that
matters is read. -/
def placementOf (properties : Properties) (processors : Nat) : Outcome Placement := do
  if ← properties.orDefault properties.boolean "acc.distributed" false then
    return .distributed (← natural properties "acc.nodes" 2)
  else
    return .inProcess (← natural properties "acc.threads" processors)

def cacheOf (properties : Properties) : Outcome CacheDimensions := do
  let maxTap ← word properties "cache.max_tap" 0
  let segments ← word properties "cache.segments" 1
  let periods ← word properties "cache.periods" 1
  return { maxTap, segments, periods }

/-- A list of names that may be missing, but must have a fixed length. -/
def namesOf (properties : Properties) (key : String) (expected : Nat) :
    Outcome (Option (List String)) := do
  let names? ← properties.ifPresent properties.strings key
  match names? with
  | none => return none
  | some names =>
    if names.length ≠ expected then throw (Refusal.entryCount key expected names.length).fault
    return some names

/-- The market segment of the gravity evaluation. -/
def marketOf (properties : Properties) : Outcome Nat := do
  let market ← natural properties "gravity.market_segment" totalMarket
  if totalMarket < market then throw Refusal.noMarket.fault
  return market

/-- The settings that properties write down. `processors` is the number of workers
when none is given. -/
def ofProperties (properties : Properties) (processors : Nat) : Outcome Settings := do
  let packetSize ← packetSizeOf properties
  let placement ← placementOf properties processors
  let cache ← cacheOf properties
  let modes ← properties.strings "constants.modes"
  let constants ← (List.range (totalMarket + 1)).mapM fun market =>
    properties.numbers s!"constants.market_{market}"
  let schoolSizeAttributes ← namesOf properties "school.size_attributes" 5
  let workSizeAttributes ← namesOf properties "work.size_attributes" 6
  let enrollmentAttribute ← properties.ifPresent properties.string "school.enrollment_attribute"
  let marketSegment ← marketOf properties
  let zoneFile ← properties.path "acc.zone_file"
  let outputFile ← properties.path "acc.output_file"
  let indexLabel ← properties.orDefault properties.string "acc.index_label"
    AccessibilityTable.defaultIndexLabel
  let sizeAttributes ← properties.strings "size.attributes"
  let decay ← properties.orDefault properties.number "gravity.decay" .one
  return {
    zoneFile, outputFile, indexLabel, packetSize, placement, cache, sizeAttributes,
    schoolSizeAttributes, enrollmentAttribute, workSizeAttributes, modes, constants, decay,
    marketSegment }

end Settings

end Accessibility
