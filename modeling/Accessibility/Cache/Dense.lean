import Accessibility.Cache.Spec
import Accessibility.Number.Binary

/-! Dense utilities between zones and taps: grids of cells that are written once. Access
utilities lie in rows by zone, egress utilities in rows by tap, and each mode has a grid
of its own for both. Most rows are never written to, so a row has no cells before its
first write. -/
namespace Accessibility

/-- Utilities, one number per alternative of a path. -/
abbrev Utilities := List Single

/-- A cell between a zone and a tap. -/
abbrev DenseCell := AccessMode × Leg × UInt32 × UInt32

/-- Rows of write-once cells, all of one width. -/
structure DenseGrid where
  /-- A row that was never written to has no cells. -/
  rows : Array (Option (Array (Option Utilities)))
  width : Nat

namespace DenseGrid

/-- A grid in which nothing is written yet. -/
def empty (rows width : Nat) : DenseGrid := ⟨Array.replicate rows none, width⟩

def inRange (grid : DenseGrid) (row column : Nat) : Bool :=
  row < grid.rows.size && column < grid.width

/-- What a cell holds, if anything. -/
def get? (grid : DenseGrid) (row column : Nat) : Option Utilities :=
  match grid.rows[row]? with
  | some (some cells) => cells[column]?.join
  | _ => none

/-- Gives a row its cells, if it has none. -/
def layOut (grid : DenseGrid) (row : Nat) : DenseGrid :=
  match grid.rows[row]? with
  | some none =>
    { grid with rows := grid.rows.setIfInBounds row (some (Array.replicate grid.width none)) }
  | _ => grid

/-- Fills a cell unless it holds something, and gives back what it then holds; nothing
if there is no such cell. -/
def put (grid : DenseGrid) (row column : Nat) (value : Utilities) : Option Utilities × DenseGrid :=
  let grid := grid.layOut row
  match grid.rows[row]? with
  | some (some cells) =>
    match cells[column]? with
    | some (some stored) => (some stored, grid)
    | some none =>
      let cells := cells.setIfInBounds column (some value)
      (some value, { grid with rows := grid.rows.setIfInBounds row (some cells) })
    | none => (none, grid)
  | _ => (none, grid)

end DenseGrid

/-- The grids of a cache. -/
structure DenseGrids where
  walkAccess : DenseGrid
  driveAccess : DenseGrid
  walkEgress : DenseGrid
  driveEgress : DenseGrid

namespace DenseGrids

def empty (zones taps : Nat) : DenseGrids where
  walkAccess := .empty zones taps
  driveAccess := .empty zones taps
  walkEgress := .empty taps zones
  driveEgress := .empty taps zones

def grid (grids : DenseGrids) : AccessMode → Leg → DenseGrid
  | .walk, .access => grids.walkAccess
  | .drive, .access => grids.driveAccess
  | .walk, .egress => grids.walkEgress
  | .drive, .egress => grids.driveEgress

def setGrid (grids : DenseGrids) (mode : AccessMode) (leg : Leg) (grid : DenseGrid) : DenseGrids :=
  match mode, leg with
  | .walk, .access => { grids with walkAccess := grid }
  | .drive, .access => { grids with driveAccess := grid }
  | .walk, .egress => { grids with walkEgress := grid }
  | .drive, .egress => { grids with driveEgress := grid }

end DenseGrids

/-- Row and column of a zone and a tap. -/
def Leg.position : Leg → UInt32 → UInt32 → Nat × Nat
  | access, zone, tap => (zone.toNat, tap.toNat)
  | egress, zone, tap => (tap.toNat, zone.toNat)

end Accessibility
