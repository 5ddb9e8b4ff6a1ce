import Accessibility.Fault

/-! Arithmetic on words that is checked: where no word holds a result, the run stops as it does at a
place that a table does not have. -/
namespace Accessibility.Word

/-- The word for a number, if there is one. -/
def holding (number : Nat) : Outcome UInt64 :=
  if number < UInt64.size then .ok number.toUInt64 else .error .outOfBounds

def sum (a b : UInt64) : Outcome UInt64 := holding (a.toNat + b.toNat)

def product (a b : UInt64) : Outcome UInt64 := holding (a.toNat * b.toNat)

def difference (a b : UInt64) : Outcome UInt64 :=
  if b ≤ a then .ok (a - b) else .error .outOfBounds

/-- The number of positions from one up to another, both of them included. -/
def span (first last : UInt64) : Outcome UInt64 := do
  let steps ← difference last first
  sum steps 1

/-- The word of 32 bits behind another one. -/
def next (a : UInt32) : Outcome UInt32 :=
  if a.toNat + 1 < UInt32.size then .ok (a + 1) else .error .outOfBounds

end Accessibility.Word
