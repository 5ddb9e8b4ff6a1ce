import Accessibility.Number.Decimal
import Accessibility.Number.Word
import Accessibility.Table.Basic
import Accessibility.Text.Delimited

/-! Tables as delimited text: a header with the labels, then one record per id with
the id in front. Reading takes the ids in sequence from zero on and nothing else, so
the number of records is the size of the table. -/
namespace Accessibility.AccessibilityTable

/-- Why a text is no table. -/
inductive TextRefusal where
  | header (cause : Delimited.Refusal)
  | emptyHeader
  | row (cause : Delimited.Refusal)
  | badZone (expected : UInt32)
  | outOfSequence (expected found : UInt32)
  | notNumber (zone : UInt32) (field : String)
  | noRows
  /-- More rows than can be counted. -/
  | overrun (fault : Fault)
  | misfit (values : Nat) (rows : UInt32) (alternatives : Nat)
  deriving DecidableEq, Repr

def TextRefusal.fault : TextRefusal → Fault
  | header cause => .invalidInput s!"table header: {cause.message}"
  | emptyHeader => .invalidInput "table header is empty"
  | row cause => .invalidInput s!"table row: {cause.message}"
  | badZone expected => .invalidInput s!"row {expected}: bad zone id"
  | outOfSequence expected found => .invalidInput s!"expected zone {expected}, found {found}"
  | notNumber zone field => .invalidInput s!"zone {zone}: '{field}' is not a number"
  | noRows => .invalidInput "table has no rows"
  | overrun fault => fault
  | misfit values rows alternatives =>
    .invalidInput s!"{values} values for {rows} rows of {alternatives} alternatives"

/-- The fields of an id's record. -/
def record (table : AccessibilityTable) (zone : UInt32) : List String :=
  toString zone :: ((table.row? zone).getD #[]).toList.map Single.text

/-- The bytes of the table as delimited text. -/
def bytes (table : AccessibilityTable) : List UInt8 :=
  Delimited.write <| ((table.indexLabel :: table.names) :: table.ids.map table.record).map
    (·.map Delimited.bytesOf)

/-- The numbers of a record that must be that of the expected id. -/
def readRow (expected : UInt32) (fields : List String) : Except TextRefusal (List Single) :=
  match fields.head?.bind wholeOfText? with
  | none => .error (.badZone expected)
  | some zone =>
    if zone ≠ expected then .error (.outOfSequence expected zone)
    else
      (fields.drop 1).mapM fun field =>
        match Single.ofText? field with
        | some value => .ok value
        | none => .error (.notNumber zone field)

/-- The numbers of records in sequence, behind those already read, and the next id. -/
def readRows (expected : UInt32) (values : Array Single) :
    List (Except Delimited.Refusal (List String)) → Except TextRefusal (UInt32 × Array Single)
  | [] => .ok (expected, values)
  | .error cause :: _ => .error (.row cause)
  | .ok fields :: rest => do
    let row ← readRow expected fields
    let following ← (Word.next expected).mapError .overrun
    readRows following (values ++ row) rest

/-- The table a text holds. -/
def parse (bytes : List UInt8) : Except TextRefusal AccessibilityTable := do
  match Delimited.header bytes with
  | .error cause => throw (.header cause)
  | .ok [] => throw .emptyHeader
  | .ok (indexLabel :: names) =>
    let (next, values) ← readRows 0 #[] (Delimited.rows bytes)
    if next = 0 then throw .noRows
    if values.size ≠ next.toNat * names.length then
      throw (.misfit values.size next names.length)
    return { indexLabel, names, maxZone := next - 1, values }

/-- The table a text holds. -/
def read (bytes : List UInt8) : Outcome AccessibilityTable :=
  match parse bytes with
  | .ok table => .ok table
  | .error refusal => .error refusal.fault

end Accessibility.AccessibilityTable
