import Accessibility.Segment.Table

/-! Work segments: the six occupations, in a fixed order, each with its code. -/
namespace Accessibility.WorkSegments

/-- Occupation codes and names in index order. -/
def occupations : List (UInt32 × String) :=
  [(71, "Management"), (72, "Professional"), (74, "Services"), (75, "Retail"), (76, "Manual"),
    (77, "Military")]

/-- The table of the occupations, found by name and by code. -/
def table : SegmentTable where
  segments := occupations.mapIdx fun i (code, name) => ⟨i, name, some code⟩
  codes := ⟨"occupation", occupations.mapIdx fun i (code, _) => (code, i)⟩

end Accessibility.WorkSegments
