import Accessibility.Toml.Moment
import Accessibility.Toml.Value

/-! Tables that state a moment. A table whose first name is the one set aside for it
stands for the moment that its string states, whatever else is in the table; if that
is no string or states no moment, the whole text is refused. The table at the top
never stands for a moment. -/
namespace Accessibility.Toml

/-- The moment that a table with this first entry states. -/
def Moment.ofStatement : Value → Option Value
  | .string text => if isStatement text then some (.datetime text) else none
  | _ => none

mutual

/-- The value with a moment in place of every table that states one. -/
def Value.resolved : Value → Option Value
  | .array items => (Value.resolvedAll items).map .array
  | .table [] => some (.table [])
  | .table ((name, value) :: rest) =>
    if name = Moment.statementName then Moment.ofStatement value
    else do
      let value ← value.resolved
      let rest ← Table.resolved rest
      return .table ((name, value) :: rest)
  | value => some value

/-- The values of an array with moments in place of tables. -/
def Value.resolvedAll : List Value → Option (List Value)
  | [] => some []
  | value :: rest => do
    let value ← value.resolved
    let rest ← Value.resolvedAll rest
    return value :: rest

/-- The entries of a table, each with moments in place of tables. -/
def Table.resolved : List (String × Value) → Option (List (String × Value))
  | [] => some []
  | (name, value) :: rest => do
    let value ← value.resolved
    let rest ← Table.resolved rest
    return (name, value) :: rest

end

end Accessibility.Toml
