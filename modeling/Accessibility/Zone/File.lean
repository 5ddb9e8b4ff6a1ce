import Accessibility.Number.Decimal
import Accessibility.Text.Blank
import Accessibility.Text.Delimited
import Accessibility.Zone.System

/-! Zone files: delimited text whose header names the columns. Five columns are
required and may stand anywhere; all others are numeric attributes, in the order of
the header. White space around headers and fields does not count. -/
namespace Accessibility.ZoneFile

/-- Why a text is no zone file. -/
inductive Refusal where
  | header (cause : Delimited.Refusal)
  | missingColumn (name : String)
  | row (number : Nat) (cause : Delimited.Refusal)
  | notWhole (number : Nat) (field column : String)
  | notNumber (number : Nat) (field column : String)
  | missingField (number column : Nat)
  deriving DecidableEq, Repr

def Refusal.fault : Refusal → Fault
  | header cause => .invalidInput s!"zone header: {cause.message}"
  | missingColumn name => .invalidInput s!"missing zone column '{name}'"
  | row number cause => .invalidInput s!"zone row {number}: {cause.message}"
  | notWhole number field column =>
    .invalidInput s!"zone row {number}: '{field}' in column '{column}' is not an integer"
  | notNumber number field column =>
    .invalidInput s!"zone row {number}: '{field}' in column '{column}' is not a number"
  | missingField number column =>
    .invalidInput s!"zone row {number} is missing column {column}"

/-- Where the required columns stand, and the attribute columns with their names. -/
structure Columns where
  zone : Nat
  x : Nat
  y : Nat
  grade : Nat
  high : Nat
  attributes : List (Nat × String)
  deriving DecidableEq, Repr

/-- The first column of the given name. -/
def column (header : List String) (name : String) : Except Refusal Nat :=
  match header.findIdx? (· = name) with
  | some index => .ok index
  | none => .error (.missingColumn name)

/-- The columns of a header. Of two columns with a required name the second is an
attribute. -/
def Columns.ofHeader (header : List String) : Except Refusal Columns := do
  let zone ← column header "zone"
  let x ← column header "x"
  let y ← column header "y"
  let grade ← column header "gs_district"
  let high ← column header "hs_district"
  let required := [zone, x, y, grade, high]
  let attributes := (header.mapIdx fun i name => (i, name)).filter fun (i, _) => i ∉ required
  return { zone, x, y, grade, high, attributes }

/-- A field of a row, read by `read?`; `refusal` says what else it should have been. -/
def field {α : Type} (read? : String → Option α) (refusal : Nat → String → String → Refusal)
    (header fields : List String) (number column : Nat) : Except Refusal α :=
  match fields[column]? with
  | none => .error (.missingField number column)
  | some text =>
    match read? text with
    | some value => .ok value
    | none => .error (refusal number text (header[column]?.getD "?"))

/-- The zone of one row. Fields are read in the order id, position, districts,
attributes, and the first bad one is reported. -/
def zoneOfRow (header : List String) (columns : Columns) (number : Nat) (fields : List String) :
    Except Refusal Zone := do
  let whole := field wholeOfText? .notWhole header fields number
  let real := field Double.ofText? .notNumber header fields number
  let id ← whole columns.zone
  let x ← real columns.x
  let y ← real columns.y
  let grade ← whole columns.grade
  let high ← whole columns.high
  let attributes ← columns.attributes.mapM fun (i, _) => real i
  return { id, x, y, districts := ⟨grade, high⟩, attributes }

/-- The zones of numbered rows, up to the first that is refused. -/
def zonesOfRows (header : List String) (columns : Columns) :
    Nat → List (Except Delimited.Refusal (List String)) → Except Refusal (List Zone)
  | _, [] => .ok []
  | number, .error cause :: _ => .error (.row number cause)
  | number, .ok fields :: rest => do
    let zone ← zoneOfRow header columns number (fields.map Blank.trimmed)
    let zones ← zonesOfRows header columns (number + 1) rest
    return zone :: zones

/-- Attribute names and zones of a zone file, not yet checked against each other. -/
def parse (bytes : List UInt8) : Except Refusal (List String × List Zone) := do
  let header ← match Delimited.header bytes with
    | .ok fields => .ok (fields.map Blank.trimmed)
    | .error cause => .error (.header cause)
  let columns ← Columns.ofHeader header
  let zones ← zonesOfRows header columns 1 (Delimited.rows bytes)
  return (columns.attributes.map (·.2), zones)

/-- The zone system of a zone file. -/
def read (bytes : List UInt8) : Outcome ZoneSystem :=
  match parse bytes with
  | .ok (names, zones) => ZoneSystem.ofZones names zones
  | .error refusal => .error refusal.fault

end Accessibility.ZoneFile
