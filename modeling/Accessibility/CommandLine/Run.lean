import Accessibility.Build
import Accessibility.CommandLine.Arguments
import Accessibility.Settings.Storage

/-! Running a command: what it prints, and how it fails. A failure says in front of
the fault what the program was about to do. -/
namespace Accessibility

/-- A fault with what the program was about to do, outermost first. -/
structure Failure where
  contexts : List String := []
  fault : Fault
  deriving DecidableEq, Repr

namespace Failure

/-- What lies behind a fault: a refusal of the file system stands for itself once
more. -/
def causes : Fault → List String
  | .io text => [text]
  | _ => []

/-- The failure in one line, from the outermost context down to the last cause. -/
def message (failure : Failure) : String :=
  ": ".intercalate (failure.contexts ++ failure.fault.message :: causes failure.fault)

end Failure

namespace Command

open Session (say)

/-- A session that may end in a failure. -/
abbrev Running := ExceptT Failure Session

variable {α : Type}

/-- Runs a procedure, with what it is for. -/
def within (contexts : List String) (procedure : Procedure α) : Running α :=
  ExceptT.mk do
    match ← procedure.run with
    | .ok value => return .ok value
    | .error fault => return .error { contexts, fault }

/-- The settings in a file. -/
def settingsOf (config : Path) (processors : Nat) : Running Settings :=
  within [s!"Failed to load {config}"] (Settings.load config processors)

/-- A text moved to the right end of a column. -/
def toRight (width : Nat) (text : String) : String :=
  "".pushn ' ' (width - text.length) ++ text

/-- A text filled up to the width of a column. -/
def toLeft (width : Nat) (text : String) : String :=
  text.pushn ' ' (width - text.length)

/-- The line that a build ends with. -/
def summary (result : BuildResult) : String :=
  if result.reused then s!"✅ Reused {result.outputPath}"
  else
    s!"✅ {result.zones} zones, {result.packets} packets ({result.executor}), {result.cachedPaths} cached paths in {result.milliseconds} ms"

def runBuild (config : Path) (reuse : Bool) (processors : Nat) : Running Unit := do
  say s!"\n🦋 Building accessibilities from {config}\n"
  let settings ← settingsOf config processors
  let result ← within [] (Build.run settings reuse)
  say ""
  say (summary result)

def schoolLine (segment : Segment) : String :=
  s!"  {toRight 4 (toString segment.index)}  {segment.name}"

def workLine (segment : Segment) : String :=
  let code := (segment.code.map toString).getD ""
  s!"  {toRight 4 (toString segment.index)}  {toLeft 14 segment.name} {code}"

def runSegments (config : Path) (processors : Nat) : Running Unit := do
  let settings ← settingsOf config processors
  let zones ← within [s!"Failed to read {settings.zoneFile}"] (ZoneFile.load settings.zoneFile)
  let groundwork ← within [] (liftM (Groundwork.lay zones settings.cache))
  say "School segments:"
  for segment in groundwork.school.table.segments do
    say (schoolLine segment)
  say "Work segments:"
  for segment in WorkSegments.table.segments do
    say (workLine segment)

def packetLine (packet : Packet) : String :=
  s!"  {toRight 4 (toString packet.id)}  {packet.first}..={packet.last}"

def runPackets (zones packetSize : UInt64) : Running Unit := do
  let packets ← within [] (liftM (Packet.ranges zones packetSize))
  say s!"{packets.length} packets"
  for packet in packets do
    say (packetLine packet)

/-- Runs a command; `processors` is the number of workers when none is configured. -/
def run (command : Command) (processors : Nat) : Running Unit :=
  match command with
  | build config reuse => runBuild config reuse processors
  | segments config => runSegments config processors
  | packets zones packetSize => runPackets zones packetSize

end Command

end Accessibility
