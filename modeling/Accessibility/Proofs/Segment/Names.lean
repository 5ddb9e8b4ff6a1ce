import Mathlib.Data.List.Nodup
import Accessibility.Proofs.Segment.Indexer

/-! Names of segments that are built from codes: a label, an underscore and a number. A number has no
underscore, so the last one of a name parts the two, whatever the label holds, and names are the same
only for the same label and number (`labelled_inj`). The names of two codes of one family meet only
under a label that stands for both kinds of code, and at codes the offset apart
(`segmentName_eq_iff_of_lt`); those of two families without a common label never do
(`segmentName_ne_segmentName`), nor does one meet a name without an underscore (`ne_segmentName`). -/
namespace Accessibility

/-- A label with a number behind it. -/
def labelled (label : String) (number : UInt32) : String := s!"{label}_{number}"

theorem toList_labelled (label : String) (number : UInt32) :
    (labelled label number).toList = label.toList ++ '_' :: Nat.toDigits 10 number.toNat := by
  show (label ++ "_" ++ Nat.repr number.toNat).toList = _
  simp

theorem underscore_mem_labelled (label : String) (number : UInt32) : '_' ∈ (labelled label number).toList := by
  rw [toList_labelled]
  exact List.mem_append_right _ List.mem_cons_self

/-- The last of its separators parts a list in one way only. -/
private theorem eq_of_append_cons_eq {α : Type} {separator : α} {front front' behind behind' : List α}
    (last : separator ∉ behind) (last' : separator ∉ behind')
    (same : front ++ separator :: behind = front' ++ separator :: behind') :
    front = front' ∧ behind = behind' := by
  obtain ⟨more, rfl, rest⟩ | ⟨more, rfl, rest⟩ := List.append_eq_append_iff.mp same
  · cases more with
    | nil => simpa using rest
    | cons first more =>
      obtain ⟨-, rfl⟩ := List.cons.inj rest
      simp at last
  · cases more with
    | nil => simpa using rest.symm
    | cons first more =>
      obtain ⟨-, rfl⟩ := List.cons.inj rest
      simp at last'

theorem labelled_inj {label label' : String} {number number' : UInt32} :
    labelled label number = labelled label' number' ↔ label = label' ∧ number = number' := by
  constructor
  · intro same
    have digits (number : UInt32) : '_' ∉ Nat.toDigits 10 number.toNat := fun member =>
      absurd (Nat.isDigit_of_mem_toDigits (by decide) (by decide) member) (by decide)
    have lists := congrArg String.toList same
    rw [toList_labelled, toList_labelled] at lists
    obtain ⟨labels, numbers⟩ := eq_of_append_cons_eq (digits number) (digits number') lists
    refine ⟨String.toList_inj.mp labels, UInt32.toNat_inj.mp ?_⟩
    rw [← @Nat.ofDigitChars_ten_toDigits number.toNat, numbers, Nat.ofDigitChars_ten_toDigits]
  · rintro ⟨rfl, rfl⟩
    rfl

namespace SegmentIndexer

variable {indexer : SegmentIndexer} {labels labels' : CodeLabels} {code code' low high : UInt32} {name : String}

/-- The label of a code's name. -/
def labelOf (indexer : SegmentIndexer) (labels : CodeLabels) (code : UInt32) : String :=
  if indexer.offset ≤ code then labels.unified else labels.plain

/-- The number in a code's name. -/
def numberOf (indexer : SegmentIndexer) (code : UInt32) : UInt32 :=
  if indexer.offset ≤ code then code - indexer.offset else code

theorem segmentName_eq (indexer : SegmentIndexer) (labels : CodeLabels) (code : UInt32) :
    indexer.segmentName labels code = labelled (indexer.labelOf labels code) (indexer.numberOf code) := by
  unfold segmentName labelOf numberOf
  split <;> rfl

theorem segmentName_eq_iff :
    indexer.segmentName labels code = indexer.segmentName labels' code' ↔
      indexer.labelOf labels code = indexer.labelOf labels' code' ∧
        indexer.numberOf code = indexer.numberOf code' := by
  rw [segmentName_eq, segmentName_eq, labelled_inj]

/-- A name without a separator is no code's. -/
theorem ne_segmentName (plain : '_' ∉ name.toList) : name ≠ indexer.segmentName labels code := by
  rintro rfl
  rw [segmentName_eq] at plain
  exact plain (underscore_mem_labelled _ _)

/-- Codes of families without a common label have different names. -/
theorem segmentName_ne_segmentName (apart : ∀ label ∈ [labels.plain, labels.unified],
      ∀ label' ∈ [labels'.plain, labels'.unified], label ≠ label') :
    indexer.segmentName labels code ≠ indexer.segmentName labels' code' := by
  have listed (labels : CodeLabels) (code : UInt32) :
      indexer.labelOf labels code ∈ [labels.plain, labels.unified] := by
    unfold labelOf
    split <;> simp
  intro same
  exact apart _ (listed labels code) _ (listed labels' code') (segmentName_eq_iff.mp same).1

/-- A code of either kind is told by its kind and its number. -/
theorem toNat_eq (indexer : SegmentIndexer) (code : UInt32) :
    code.toNat = (if indexer.offset ≤ code then indexer.offset.toNat else 0) + (indexer.numberOf code).toNat := by
  unfold numberOf
  split
  next unified =>
    rw [UInt32.toNat_sub_of_le _ _ unified]
    have : indexer.offset.toNat ≤ code.toNat := unified
    omega
  next => omega

/-- Names of two codes of one family are the same only where one label stands for both kinds of code, for
a plain code and the unified one the offset above it. -/
theorem segmentName_eq_iff_of_lt (below : low < high) :
    indexer.segmentName labels low = indexer.segmentName labels high ↔
      labels.plain = labels.unified ∧ low < indexer.offset ∧
        high.toNat = low.toNat + indexer.offset.toNat := by
  have below : low.toNat < high.toNat := below
  have lower := toNat_eq indexer low
  have upper := toNat_eq indexer high
  rw [segmentName_eq_iff, ← UInt32.toNat_inj]
  unfold labelOf
  by_cases plain : low < indexer.offset
  · rw [if_neg (UInt32.not_le.mpr plain)] at lower ⊢
    by_cases unified : indexer.offset ≤ high
    · rw [if_pos unified] at upper ⊢
      simp only [plain, true_and]
      exact and_congr_right fun _ => by omega
    · rw [if_neg unified] at upper ⊢
      have : high.toNat < indexer.offset.toNat := UInt32.not_le.mp unified
      constructor
      · omega
      · omega
  · have both : indexer.offset ≤ low := UInt32.not_lt.mp plain
    have above : indexer.offset ≤ high := UInt32.le_trans both (UInt32.le_of_lt below)
    rw [if_pos both] at lower ⊢
    rw [if_pos above] at upper ⊢
    simp only [plain, false_and, and_false, iff_false]
    omega

/-- Two codes whose names meet: under one label, a plain code and the unified one the offset above it. -/
def Meet (indexer : SegmentIndexer) (labels : CodeLabels) (codes : List UInt32) : Prop :=
  labels.plain = labels.unified ∧ ∃ low ∈ codes, ∃ high ∈ codes, low < indexer.offset ∧
    high.toNat = low.toNat + indexer.offset.toNat

/-- Different codes have names of their own if none of them meet. -/
theorem nodup_names_iff {codes : List UInt32} (distinct : codes.Nodup) :
    (codes.map (indexer.segmentName labels)).Nodup ↔ ¬ indexer.Meet labels codes := by
  have apart {low high : UInt32} (below : low < high) (lower : low ∈ codes) (upper : high ∈ codes)
      (none : ¬ indexer.Meet labels codes) :
      indexer.segmentName labels low ≠ indexer.segmentName labels high := fun same => by
    obtain ⟨label, plain, number⟩ := (segmentName_eq_iff_of_lt below).mp same
    exact none ⟨label, low, lower, high, upper, plain, number⟩
  rw [List.nodup_map_iff_inj_on distinct]
  constructor
  · rintro names ⟨label, low, lower, high, upper, plain, number⟩
    have below : low < high := UInt32.lt_iff_toNat_lt.mpr (by
      have : low.toNat < indexer.offset.toNat := plain
      omega)
    exact UInt32.ne_of_lt below
      (names low lower high upper ((segmentName_eq_iff_of_lt below).mpr ⟨label, plain, number⟩))
  · intro none code member code' member' same
    by_contra different
    rcases UInt32.lt_or_lt_of_ne different with below | below
    · exact apart below member member' none same
    · exact apart below member' member none same.symm

end SegmentIndexer

end Accessibility
