import Accessibility.Evaluation.Setup
import Accessibility.Execution.Local
import Accessibility.Execution.Loopback
import Accessibility.Job
import Accessibility.Settings.Basic
import Accessibility.Table.Storage
import Accessibility.Text.Quoted
import Accessibility.Zone.Storage

/-! Building the table that settings describe: read the zones, lay out segments and
cache, compute size terms and constants, evaluate all packets, and only then write the
table. On request a table that is there already is reused instead, if it has the
alternatives the settings name. Progress is printed as the build goes along. -/
namespace Accessibility

/-- What a run lays out before it computes anything: the school segments of the zones
and an empty cache. -/
structure Groundwork where
  indexer : SegmentIndexer
  school : SchoolSegments
  cache : UtilityCache

/-- The groundwork for a zone system. -/
def Groundwork.lay (zones : ZoneSystem) (dimensions : CacheDimensions) : Outcome Groundwork := do
  let indexer := SegmentIndexer.standard
  let school ← SchoolSegments.build indexer zones.districts
  let cache ← UtilityCache.create {
    maxZone := zones.maxZone
    maxTap := dimensions.maxTap
    segments := dimensions.segments
    periods := dimensions.periods }
  return { indexer, school, cache }

/-- Tables kept for the models that choose schools and workplaces. -/
structure ChoiceTerms where
  school : Option SizeTermTable := none
  /-- Factors of the school segments. -/
  factors : Option Setup.SegmentFactors := none
  work : Option SizeTermTable := none
  deriving Repr

/-- What a build comes to. -/
structure BuildResult where
  table : AccessibilityTable
  /-- Empty for a table that was reused. -/
  terms : ChoiceTerms
  outputPath : Path
  reused : Bool
  zones : Nat
  packets : Nat
  /-- Name of the executor, or that there was none. -/
  executor : String
  /-- Number of entries the run's own cache holds in the end. -/
  cachedPaths : Nat
  milliseconds : Nat
  deriving Repr

namespace Build

/-- Why a table cannot be reused. -/
inductive Refusal where
  | otherAlternatives (path : Path) (found expected : List String)
  deriving DecidableEq, Repr

def Refusal.fault : Refusal → Fault
  | otherAlternatives path found expected =>
    .invalidInput s!"{path} has alternatives {Quoted.texts found}, configuration expects {Quoted.texts expected}"

open Session (say)

/-- A size term table, after the notices that came with it. -/
def announced (noted : Outcome Setup.Noted) : Procedure SizeTermTable := do
  let noted ← noted
  for notice in noted.notices do
    Session.warn notice
  return noted.table

/-- Takes the table from the output file, if it has the right alternatives. -/
def reuse (settings : Settings) (started : Nat) : Procedure BuildResult := do
  say s!"Reusing {settings.outputFile}..."
  let table ← AccessibilityTable.load settings.outputFile
  if table.names ≠ settings.sizeAttributes then
    throw (Refusal.otherAlternatives settings.outputFile table.names settings.sizeAttributes).fault
  say s!"  ✓ {table.maxZone.toNat + 1} rows"
  let finished ← Session.clock
  return {
    table, terms := {}, outputPath := settings.outputFile, reused := true, zones := 0, packets := 0
    executor := "none", cachedPaths := 0, milliseconds := finished - started }

/-- The school size terms that are configured, and with an enrollment attribute their
factors as well. -/
def schoolTerms (settings : Settings) (zones : ZoneSystem) (school : SchoolSegments) :
    Procedure (Option SizeTermTable × Option Setup.SegmentFactors) := do
  match settings.schoolSizeAttributes with
  | none => return (none, none)
  | some attributes =>
    let table ← announced
      (Setup.schoolSizeTerms zones school (.ofAttributes attributes) { zones := some zones })
    say s!"  ✓ school size terms over {table.width} segments"
    match settings.enrollmentAttribute with
    | none => return (some table, none)
    | some enrollment =>
      let factors ← Setup.schoolFactors table school zones enrollment
      say "  ✓ school segment factors"
      return (some table, some factors)

/-- The work size terms that are configured. -/
def workTerms (settings : Settings) (zones : ZoneSystem) : Procedure (Option SizeTermTable) := do
  match settings.workSizeAttributes with
  | none => return none
  | some attributes =>
    let table ← announced
      (Setup.workSizeTerms zones (.ofAttributes attributes) { zones := some zones })
    say s!"  ✓ work size terms over {table.width} occupations"
    return some table

/-- The inputs of the job and the choice terms, computed from the zones. -/
def prepare (settings : Settings) (zones : ZoneSystem) (groundwork : Groundwork) :
    Procedure (JobInputs × ChoiceTerms) := do
  let context : Context := { zones := some zones }
  say "Computing size terms..."
  let sizeTerms ← announced
    (Setup.sizeTerms zones settings.sizeAttributes (.ofAttributes settings.sizeAttributes) context)
  say s!"  ✓ {sizeTerms.width} segments"
  let (school, factors) ← schoolTerms settings zones groundwork.school
  let work ← workTerms settings zones
  say "Computing constants..."
  let evaluator ← Evaluator.ofConstants settings.modes settings.constants
  let constants ← Setup.modeConstants evaluator context
  say s!"  ✓ {constants.modes.length} modes"
  return ({ zones, sizeTerms, constants, cacheSpec := groundwork.cache.spec },
    { school, factors, work })

/-- The evaluator of the job. -/
def gravity (settings : Settings) : Evaluator :=
  .ofGravity {
    names := settings.sizeAttributes
    decay := settings.decay
    market := settings.marketSegment }

/-- A job that can be run: the name of its executor, and the table with the number of
entries left in the run's cache. -/
structure ReadyJob where
  executor : String
  run : JobInputs → Outcome AccessibilityTable × Nat

/-- An executor with workers from a pool that the system has to set up. -/
def employ (threads : Nat) (evaluator : Evaluator) : Procedure (Executor UtilityCache) := do
  let executor ← LocalExecutor.create threads evaluator
  match ← Session.enlist threads with
  | .ok () => return executor
  | .error text => throw (LocalExecutor.Refusal.noPool text).fault

/-- Sets up the executor. Workers within the process share the run's cache; nodes keep
caches of their own. -/
def readyJob (settings : Settings) (groundwork : Groundwork) : Procedure ReadyJob := do
  let evaluator := gravity settings
  let width := evaluator.width
  match settings.placement with
  | .inProcess threads =>
    let executor ← employ threads evaluator
    return {
      executor := executor.name
      run := fun inputs =>
        let (outcome, cache) :=
          (Job.compute executor inputs settings.packetSize width).run groundwork.cache
        (outcome, cache.entries) }
  | .distributed nodes =>
    let transport ← Loopback.transport nodes evaluator []
    let executor := DistributedExecutor.create transport width.toUInt64
    return {
      executor := executor.name
      run := fun inputs =>
        let (outcome, _) :=
          (Job.compute executor inputs settings.packetSize width).run (DistributedExecutor.start [])
        (outcome, groundwork.cache.entries) }

/-- Writes the table, in a directory that is created where it is missing. -/
def publish (table : AccessibilityTable) (path : Path) : Procedure Unit := do
  match path.parent? with
  | none => pure ()
  | some directory => .ofReply (.createDirectories directory.ancestors)
  table.store path
  say s!"  ✓ Wrote {path}"

/-- Reads the zones and lays the groundwork for them. -/
def lay (settings : Settings) : Procedure (ZoneSystem × Groundwork) := do
  say "Loading zones..."
  let zones ← ZoneFile.load settings.zoneFile
  say s!"  ✓ {zones.size} zones (max id {zones.maxZone}), {zones.attributeNames.length} attributes"
  let groundwork ← Groundwork.lay zones settings.cache
  say s!"  ✓ {groundwork.school.size} school segments, {WorkSegments.table.size} work segments"
  return (zones, groundwork)

/-- Runs the job and publishes its table. -/
def finish (settings : Settings) (started : Nat) (job : ReadyJob) (inputs : JobInputs)
    (terms : ChoiceTerms) : Procedure BuildResult := do
  let zones := inputs.zones.size
  say s!"Computing accessibilities ({job.executor})..."
  let packets ← Packet.ranges zones.toUInt64 settings.packetSize
  let (outcome, cachedPaths) := job.run inputs
  let unlabelled ← outcome
  let table ← unlabelled.withLabels settings.indexLabel settings.sizeAttributes
  say s!"  ✓ {packets.length} packets merged"
  publish table settings.outputFile
  let finished ← Session.clock
  return {
    table, terms, outputPath := settings.outputFile, reused := false, zones
    packets := packets.length, executor := job.executor, cachedPaths
    milliseconds := finished - started }

/-- Computes the table for zones and writes it. -/
def fill (settings : Settings) (started : Nat) (zones : ZoneSystem) (groundwork : Groundwork) :
    Procedure BuildResult := do
  let (inputs, terms) ← prepare settings zones groundwork
  let job ← readyJob settings groundwork
  finish settings started job inputs terms

/-- Computes the table and writes it. -/
def compute (settings : Settings) (started : Nat) : Procedure BuildResult := do
  let (zones, groundwork) ← lay settings
  fill settings started zones groundwork

/-- Builds the table that settings describe, or reuses the one in their output
file. -/
def run (settings : Settings) (mayReuse : Bool) : Procedure BuildResult := do
  let started ← Session.clock
  if !mayReuse then compute settings started
  else
    match ← Session.probe settings.outputFile with
    | .absent => compute settings started
    | _ => reuse settings started

end Build

end Accessibility
