import Accessibility.Number.Shortest
import Accessibility.Text.Suggestion

/-! Why a run stops. Nothing is downgraded to a warning: a fault of the setup is
found before anything is computed, a lookup or computation that fails ends the job
at its first occurrence, and a fault of the distribution ends the whole job. Each
fault carries the text that tells it from others of its kind; the modules that
raise faults state their causes and word them. -/
namespace Accessibility

/-- A failed run. -/
inductive Fault where
  /-- A setup value that is missing or out of range. -/
  | configuration (text : String)
  /-- A name or code that was never registered. -/
  | lookup (text : String)
  /-- The evaluator failed for a zone. -/
  | computation (zone : UInt32) (text : String)
  /-- A node, the transport or a reply failed. -/
  | distribution (text : String)
  /-- The file system refused an operation. -/
  | io (text : String)
  /-- Malformed input data. -/
  | invalidInput (text : String)
  /-- A table turned out to be shorter than its own bounds say, or a count left its word. -/
  | outOfBounds
  deriving DecidableEq, Repr

/-- The result of a step that may fail. -/
abbrev Outcome := Except Fault

namespace Fault

/-- The fault in words. -/
def message : Fault → String
  | configuration text => s!"Configuration error: {text}"
  | lookup text => s!"Lookup error: {text}"
  | computation zone text => s!"Computation failed for zone {zone}: {text}"
  | distribution text => s!"Distribution error: {text}"
  | io text => s!"I/O error: {text}"
  | invalidInput text => s!"Invalid input: {text}"
  | outOfBounds => "out of bounds"

/-- Whether the evaluator itself failed, rather than what surrounds it. -/
def isComputation : Fault → Bool
  | computation .. => true
  | _ => false

def isConfiguration : Fault → Bool
  | configuration _ => true
  | _ => false

/-- A name of the given kind that is not among the known ones, with the closest of
them when one is close enough. -/
def unknownName (kind name : String) (known : List String) : Fault :=
  match Suggestion.suggest? name known with
  | some candidate => lookup s!"unknown {kind} '{name}' (did you mean '{candidate}'?)"
  | none => lookup s!"unknown {kind} '{name}'"

end Fault

end Accessibility
