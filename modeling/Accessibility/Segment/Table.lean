import Accessibility.Fault

/-! Segments: named classes of demand with dense indices. A table lists them in
index order and never holds one name twice; a code index leads from the raw codes of
one family, in ascending order, to the segments built from them. -/
namespace Accessibility

/-- One segment. -/
structure Segment where
  index : Nat
  name : String
  /-- The raw code it was built from; fixed segments have none. -/
  code : Option UInt32
  deriving DecidableEq, Repr, Inhabited

/-- Segments of one code family by raw code, in ascending order of the codes. -/
structure CodeIndex where
  kind : String
  entries : List (UInt32 × Nat)
  deriving DecidableEq, Repr, Inhabited

/-- Segments in index order. -/
structure SegmentTable where
  segments : List Segment
  /-- The code family the table was built from. -/
  codes : CodeIndex
  deriving DecidableEq, Repr, Inhabited

namespace Segment

/-- Why a segment cannot be registered or found, or a district has no code. -/
inductive Refusal where
  | registeredTwice (name : String)
  | noIndex (index : Nat)
  | noCode (kind : String) (code : UInt32)
  | districtTooLarge (zone offset : UInt32)
  | unifiedOverflow (district offset : UInt32)
  deriving DecidableEq, Repr

def Refusal.fault : Refusal → Fault
  | registeredTwice name => .configuration s!"segment name '{name}' registered twice"
  | noIndex index => .lookup s!"no segment with index {index}"
  | noCode kind code => .lookup s!"{kind} code {code} has no segment"
  | districtTooLarge zone offset =>
    .configuration s!"zone {zone}: district codes must be below {offset}"
  | unifiedOverflow district offset =>
    .configuration s!"unified district {district} overflows offset {offset}"

end Segment

namespace CodeIndex

def empty (kind : String) : CodeIndex := ⟨kind, []⟩

/-- Segment of a raw code, which has to be registered. -/
def get (index : CodeIndex) (code : UInt32) : Outcome Nat :=
  match index.entries.find? (·.1 = code) with
  | some (_, segment) => .ok segment
  | none => .error (Segment.Refusal.noCode index.kind code).fault

/-- Registered codes, ascending. -/
def codes (index : CodeIndex) : List UInt32 := index.entries.map (·.1)

/-- Segments in code order. -/
def segments (index : CodeIndex) : List Nat := index.entries.map (·.2)

end CodeIndex

namespace SegmentTable

def empty : SegmentTable := ⟨[], .empty ""⟩

def size (table : SegmentTable) : Nat := table.segments.length

/-- Names in index order. -/
def names (table : SegmentTable) : List String := table.segments.map (·.name)

/-- The table with one more segment, at the next free index. -/
def push (table : SegmentTable) (name : String) (code : Option UInt32) : Outcome SegmentTable :=
  if name ∈ table.names then .error (Segment.Refusal.registeredTwice name).fault
  else .ok { table with segments := table.segments ++ [⟨table.size, name, code⟩] }

/-- Index of a registered name. -/
def indexOf (table : SegmentTable) (name : String) : Outcome Nat :=
  match table.segments.find? (·.name = name) with
  | some segment => .ok segment.index
  | none => .error (Fault.unknownName "segment" name table.names)

/-- Name of the segment at an index. -/
def nameOf (table : SegmentTable) (index : Nat) : Outcome String :=
  match table.segments[index]? with
  | some segment => .ok segment.name
  | none => .error (Segment.Refusal.noIndex index).fault

/-- Segment of a raw code of the table's family. -/
def indexOfCode (table : SegmentTable) (code : UInt32) : Outcome Nat := table.codes.get code

end SegmentTable

end Accessibility
