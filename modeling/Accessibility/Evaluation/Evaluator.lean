import Accessibility.Evaluation.Program
import Accessibility.JobInputs

/-! Utility evaluators: one value per alternative for a zone. Whatever an evaluator
may read is passed to it in a context. Attribute evaluators read columns of the
zone system, constant evaluators the configured rows, and the gravity evaluator sums
size terms over all destinations, weighted by distance:
`ln (1 + Σ_d size(d, s) · C · exp (-decay · dist (o, d)))`, with `C` the total
constant of a market segment. -/
namespace Accessibility

/-- What an evaluation may read. -/
structure Context where
  /-- Market row of a constant evaluation. -/
  market : Option Nat := none
  zones : Option ZoneSystem := none
  /-- Inputs of the job under way. -/
  inputs : Option JobInputs := none
  deriving Inhabited

/-- What an evaluation reads while a job is under way. -/
def Context.ofJob (inputs : JobInputs) : Context := { inputs := some inputs }

/-- The zone system of the context, or that of the job. -/
def Context.zoneSystem (context : Context) : Option ZoneSystem :=
  context.zones.or (context.inputs.map (·.zones))

/-- An evaluator with the names of its alternatives, in output order. -/
structure Evaluator where
  names : List String
  evaluate : UInt32 → Context → Evaluation (List Double)

namespace Evaluator

/-- Number of alternatives. -/
def width (evaluator : Evaluator) : Nat := evaluator.names.length

/-- Why an evaluator cannot be set up or cannot answer. -/
inductive Refusal where
  | needsZones (zone : UInt32)
  | needsMarket
  | noConstants (market : Nat)
  | constantWidth (market found modes : Nat)
  | needsInputs (zone : UInt32)
  | segmentMismatch (zone : UInt32) (segments alternatives : Nat)
  deriving DecidableEq, Repr

def Refusal.fault : Refusal → Fault
  | needsZones zone => .computation zone "attribute evaluator needs a zone system"
  | needsMarket => .configuration "constant evaluation needs a market segment"
  | noConstants market => .lookup s!"no constants for market segment {market}"
  | constantWidth market found modes =>
    .configuration s!"market segment {market} has {found} constants for {modes} modes"
  | needsInputs zone => .computation zone "gravity evaluator needs job inputs"
  | segmentMismatch zone segments alternatives =>
    .computation zone s!"{segments} size segments for {alternatives} alternatives"

/-- Reads named zone attributes as alternatives. -/
def ofAttributes (columns : List String) : Evaluator where
  names := columns
  evaluate zone context := .ofOutcome <|
    match context.zoneSystem with
    | none => .error (Refusal.needsZones zone).fault
    | some zones => columns.mapM fun column => zones.attributeOf zone column

/-- The constants of the context's market segment, from rows that are known to have
one constant per mode. -/
def constantRow (rows : List (List Double)) (market : Option Nat) : Outcome (List Double) :=
  match market with
  | none => .error Refusal.needsMarket.fault
  | some market =>
    match rows[market]? with
    | some row => .ok row
    | none => .error (Refusal.noConstants market).fault

/-- Configured constants: row `m` holds those of market segment `m`. The first row
of a wrong width is reported. -/
def ofConstants (modes : List String) (rows : List (List Double)) : Outcome Evaluator :=
  match rows.findIdx? (·.length ≠ modes.length) with
  | some market =>
    .error (Refusal.constantWidth market (rows[market]?.getD []).length modes.length).fault
  | none =>
    .ok {
      names := modes
      evaluate := fun _ context => .ofOutcome (constantRow rows context.market) }

/-- An evaluator given by a function. -/
def ofFunction (names : List String) (f : UInt32 → Context → Outcome (List Double)) :
    Evaluator where
  names := names
  evaluate zone context := .ofOutcome (f zone context)

/-- Settings of a gravity evaluation. -/
structure Gravity where
  names : List String
  decay : Double
  /-- Market segment whose total constant scales every weight. -/
  market : Nat
  /-- Cache slot of the impedances. -/
  segment : UInt32 := 0
  period : UInt32 := 0
  deriving DecidableEq, Repr

namespace Gravity

/-- The impedance between two zones, the decayed distance as a single. -/
def impedance (gravity : Gravity) (zones : ZoneSystem) (origin destination : UInt32) :
    Outcome Single := do
  let distance ← zones.distance origin destination
  return (-gravity.decay * distance).toSingle

/-- The impedance through the cache, under the evaluator's slot. -/
def cachedImpedance (gravity : Gravity) (zones : ZoneSystem) (origin destination : UInt32) :
    Evaluation Double := do
  let utilities ← Evaluation.cached ⟨gravity.segment, gravity.period, origin, destination⟩
    fun _ => (gravity.impedance zones origin destination).map ([·])
  match utilities[0]? with
  | some impedance => pure impedance.toDouble
  | none => throw .outOfBounds

/-- One destination's contribution added to the sums, segment by segment. -/
def addWeighted (sizeTerms : SizeTermTable) (destination : UInt32) (weight : Double)
    (sums : List Double) : Outcome (List Double) :=
  (sums.mapIdx fun segment sum => (segment, sum)).mapM fun (segment, sum) => do
    let size ← sizeTerms.get destination segment
    return sum + size * weight

/-- The sums over the destinations that have a size term, in order. -/
def sumOver (gravity : Gravity) (inputs : JobInputs) (constant : Double) (origin : UInt32) :
    List Zone → List Double → Evaluation (List Double)
  | [], sums => pure sums
  | destination :: rest, sums =>
    if inputs.sizeTerms.hasSizeTerm destination.id then do
      let impedance ← gravity.cachedImpedance inputs.zones origin destination.id
      let weight := constant * impedance.exp
      let sums ← .ofOutcome (addWeighted inputs.sizeTerms destination.id weight sums)
      gravity.sumOver inputs constant origin rest sums
    else gravity.sumOver inputs constant origin rest sums

/-- The gravity accessibility of one origin. -/
def accessibility (gravity : Gravity) (origin : UInt32) (context : Context) :
    Evaluation (List Double) := do
  match context.inputs with
  | none => throw (Refusal.needsInputs origin).fault
  | some inputs =>
    if inputs.sizeTerms.width ≠ gravity.names.length then
      throw (Refusal.segmentMismatch origin inputs.sizeTerms.width gravity.names.length).fault
    let constant ← .ofOutcome (inputs.constants.total gravity.market)
    let sums ← gravity.sumOver inputs constant origin inputs.zones.zones.toList
      (gravity.names.map fun _ => .zero)
    return sums.map Double.logOnePlus

end Gravity

/-- Size-weighted gravity accessibility. -/
def ofGravity (gravity : Gravity) : Evaluator where
  names := gravity.names
  evaluate := gravity.accessibility

end Evaluator

end Accessibility
