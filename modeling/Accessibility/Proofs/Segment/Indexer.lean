import Mathlib.Data.List.Nodup
import Mathlib.Data.List.Pairwise
import Accessibility.Segment.Indexer

/-! Codes in ascending order. Insertion keeps a list of codes strictly ascending and adds no more
than the code it is given, so `distinctCodes` is the one strictly ascending list of the codes that
occur (`distinctCodes_eq`): their order and their number do not matter, and neither do they to the
segments of an assignment (`SegmentIndexer.buildSegments_eq`). -/
namespace Accessibility

variable {code other : UInt32} {codes codes' : List UInt32}

theorem mem_insertCode : other ∈ insertCode code codes ↔ other = code ∨ other ∈ codes := by
  induction codes with
  | nil => simp [insertCode]
  | cons first rest ih =>
    simp only [insertCode]
    split
    next => exact List.mem_cons
    next =>
      split
      next same => simp [same]
      next =>
        simp only [List.mem_cons, ih]
        exact or_left_comm

theorem pairwise_insertCode (ascending : codes.Pairwise (· < ·)) :
    (insertCode code codes).Pairwise (· < ·) := by
  induction codes with
  | nil => exact List.pairwise_singleton ..
  | cons first rest ih =>
    obtain ⟨low, high⟩ := List.pairwise_cons.mp ascending
    simp only [insertCode]
    split
    next below =>
      refine List.pairwise_cons.mpr ⟨fun later member => ?_, ascending⟩
      rcases List.mem_cons.mp member with rfl | member
      · exact below
      · exact UInt32.lt_trans below (low later member)
    next above =>
      split
      next => exact ascending
      next different =>
        refine List.pairwise_cons.mpr ⟨fun later member => ?_, ih high⟩
        rcases mem_insertCode.mp member with rfl | member
        · exact Std.lt_of_le_of_ne (UInt32.not_lt.mp above) (Ne.symm different)
        · exact low later member

theorem mem_distinctCodes : code ∈ distinctCodes codes ↔ code ∈ codes := by
  have onto (sorted : List UInt32) :
      code ∈ codes.foldl (fun sorted code => insertCode code sorted) sorted ↔
        code ∈ sorted ∨ code ∈ codes := by
    induction codes generalizing sorted with
    | nil => simp
    | cons first rest ih =>
      rw [List.foldl_cons, ih, mem_insertCode, List.mem_cons]
      tauto
  simpa [distinctCodes] using onto []

theorem pairwise_distinctCodes (codes : List UInt32) : (distinctCodes codes).Pairwise (· < ·) := by
  have onto (sorted : List UInt32) (ascending : sorted.Pairwise (· < ·)) :
      (codes.foldl (fun sorted code => insertCode code sorted) sorted).Pairwise (· < ·) := by
    induction codes generalizing sorted with
    | nil => exact ascending
    | cons first rest ih => exact ih _ (pairwise_insertCode ascending)
  exact onto [] .nil

/-- The distinct codes depend on no more than which codes occur. -/
theorem distinctCodes_eq (same : ∀ code, code ∈ codes ↔ code ∈ codes') :
    distinctCodes codes = distinctCodes codes' := by
  have distinct (codes : List UInt32) : (distinctCodes codes).Nodup :=
    (pairwise_distinctCodes codes).imp UInt32.ne_of_lt
  have perm : (distinctCodes codes).Perm (distinctCodes codes') := by
    rw [List.perm_ext_iff_of_nodup (distinct codes) (distinct codes')]
    intro code
    rw [mem_distinctCodes, mem_distinctCodes]
    exact same code
  exact perm.eq_of_pairwise (fun _ _ _ _ below above => absurd above (UInt32.lt_asymm below))
    (pairwise_distinctCodes codes) (pairwise_distinctCodes codes')

namespace SegmentIndexer

variable {assignment assignment' : List (UInt32 × UInt32)}

/-- The segments of an assignment depend on its codes only, and so does the fault where there are
none. -/
theorem buildSegments_eq
    (same : ∀ code, code ∈ assignment.map (·.2) ↔ code ∈ assignment'.map (·.2))
    (indexer : SegmentIndexer) (reserved : List String) (labels : CodeLabels) :
    indexer.buildSegments reserved assignment labels =
      indexer.buildSegments reserved assignment' labels := by
  simp only [buildSegments, distinctCodes_eq same]

end SegmentIndexer

end Accessibility
