import Accessibility.Fault

/-! The accessibility table: a row of singles for every id in `[0, maxZone]`, all
zero where an id is no valid zone, with a label for the id column and a name for
each alternative. -/
namespace Accessibility

structure AccessibilityTable where
  indexLabel : String
  names : List String
  maxZone : UInt32
  /-- Row after row, one number per name. -/
  values : Array Single
  deriving DecidableEq, Repr, Inhabited

namespace AccessibilityTable

/-- Why a table cannot take the names it is given. -/
inductive Refusal where
  | nameCount (names alternatives : Nat)
  deriving DecidableEq, Repr

def Refusal.fault : Refusal → Fault
  | nameCount names alternatives =>
    .configuration s!"{names} alternative names for a table with {alternatives} alternatives"

/-- The id column's label when nothing else is configured. -/
def defaultIndexLabel : String := "zone"

/-- A table of zeros with numbered alternatives. -/
def zeros (maxZone : UInt32) (alternatives : Nat) : AccessibilityTable where
  indexLabel := defaultIndexLabel
  names := (List.range alternatives).map fun i => s!"alt_{i}"
  maxZone := maxZone
  values := Array.replicate ((maxZone.toNat + 1) * alternatives) .zero

/-- Number of alternatives, the width of a row. -/
def width (table : AccessibilityTable) : Nat := table.names.length

/-- The table under other labels, one name for each alternative. -/
def withLabels (table : AccessibilityTable) (indexLabel : String) (names : List String) :
    Outcome AccessibilityTable :=
  if names.length = table.width then .ok { table with indexLabel, names }
  else .error (Refusal.nameCount names.length table.width).fault

/-- The row of an id; there is none beyond the table. -/
def row? (table : AccessibilityTable) (zone : UInt32) : Option (Array Single) :=
  if table.maxZone < zone then none
  else
    let start := zone.toNat * table.width
    some (table.values.extract start (start + table.width))

/-- The number of an id and alternative; there is none beyond the table. -/
def get? (table : AccessibilityTable) (zone : UInt32) (alternative : Nat) : Option Single :=
  (table.row? zone).bind (·[alternative]?)

/-- Writes numbers over the flat cells from `start` on. -/
def overwrite (cells : Array Single) (start : Nat) (row : List Single) : Array Single :=
  match row with
  | [] => cells
  | value :: rest => overwrite (cells.setIfInBounds start value) (start + 1) rest

/-- The table with another row for an id within it; `none` beyond the table. -/
def setRow? (table : AccessibilityTable) (zone : UInt32) (row : Array Single) :
    Option AccessibilityTable :=
  if table.maxZone < zone then none
  else
    some { table with
      values := overwrite table.values (zone.toNat * table.width) (row.toList.take table.width) }

/-- Every id of the table. -/
def ids (table : AccessibilityTable) : List UInt32 :=
  (List.range (table.maxZone.toNat + 1)).map Nat.toUInt32

/-- Equality of labels, bounds and numbers; a table with a NaN equals none. -/
def sameNumbers (a b : AccessibilityTable) : Bool :=
  a.indexLabel = b.indexLabel && a.names = b.names && a.maxZone = b.maxZone &&
    a.values.size = b.values.size &&
    (a.values.toList.zip b.values.toList).all fun (x, y) => x.sameNumber y

end AccessibilityTable

end Accessibility
