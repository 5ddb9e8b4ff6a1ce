import Accessibility.Fault

/-! Exponentiated mode constants: a row of one number per mode for each market
segment and one more for the total, in one flat list of cells. -/
namespace Accessibility

/-- The last market row; the rows before it are the market segments. -/
def totalMarket : Nat := 3

structure ModeConstants where
  modes : List String
  values : Array Double
  deriving DecidableEq, Repr, Inhabited

namespace ModeConstants

/-- Why a constant cannot be found. -/
inductive Refusal where
  | noMarket (market : Nat)
  | noMode (mode : Nat)
  deriving DecidableEq, Repr

def Refusal.fault : Refusal → Fault
  | noMarket market => .lookup s!"market segment {market} out of range (0..={totalMarket})"
  | noMode mode => .lookup s!"no constant for mode index {mode}"

/-- The constants of a market segment. -/
def row (constants : ModeConstants) (market : Nat) : Outcome (List Double) :=
  if totalMarket < market then .error (Refusal.noMarket market).fault
  else
    let width := constants.modes.length
    if (market + 1) * width ≤ constants.values.size then
      .ok (constants.values.extract (market * width) ((market + 1) * width)).toList
    else .error .outOfBounds

/-- The constant of a mode. -/
def get (constants : ModeConstants) (market mode : Nat) : Outcome Double := do
  let row ← constants.row market
  match row[mode]? with
  | some value => return value
  | none => throw (Refusal.noMode mode).fault

/-- The sum of a market segment's constants. -/
def total (constants : ModeConstants) (market : Nat) : Outcome Double := do
  let row ← constants.row market
  return Double.sum row

end ModeConstants

end Accessibility
