import Accessibility.Evaluation.Setup
import Accessibility.Proofs.Evaluation.Service
import Accessibility.Proofs.Outcome

/-! What is computed from the zones before packets are cut fails for the data alone, if the lists
of attributes have the lengths that are asked for and every row of constants has one for each
mode. -/
namespace Accessibility

theorem ZoneSystem.configured_zone (zones : ZoneSystem) (id : UInt32) : Configured (zones.zone id) := by
  unfold zone
  split
  · exact .ok _
  · exact .error rfl

theorem ZoneSystem.mem_of_zone {zones : ZoneSystem} {id : UInt32} {zone : Zone}
    (found : zones.zone id = .ok zone) : zone ∈ zones.zones.toList := by
  unfold ZoneSystem.zone find? at found
  split at found
  next own place =>
    split at place
    next first there =>
      split at place
      · cases place
        cases found
        exact Array.mem_toList_iff.mpr (Array.mem_of_getElem? there)
      · cases place
    next => cases place
  next => cases found

theorem Fault.isConfiguration_unknownName (kind name : String) (known : List String) :
    (unknownName kind name known).isConfiguration = false := by
  unfold unknownName
  split <;> rfl

theorem ZoneSystem.configured_attributeIndex (zones : ZoneSystem) (name : String) :
    Configured (zones.attributeIndex name) := by
  unfold attributeIndex
  split
  · exact .ok _
  · exact .error (Fault.isConfiguration_unknownName ..)

theorem ZoneSystem.configured_attributeOf (zones : ZoneSystem) (id : UInt32) (name : String) :
    Configured (zones.attributeOf id name) := by
  apply (zones.configured_attributeIndex name).bind
  intro index _
  apply (zones.configured_zone id).bind
  intro zone _
  split
  · exact .ok _
  · exact .error rfl

namespace SizeTermTable

theorem configured_set (table : SizeTermTable) (zone : UInt32) (segment : Nat) (value : Double) :
    Configured (table.set zone segment value) := by
  unfold set
  split
  · exact .error rfl
  · split
    · exact .error rfl
    · split
      · exact .error rfl
      · exact .ok _

theorem configured_get (table : SizeTermTable) (zone : UInt32) (segment : Nat) :
    Configured (table.get zone segment) := by
  have row : Configured (table.row zone) := by
    unfold row
    split
    · exact .ok []
    · simp only
      split
      · exact .ok _
      · exact .error rfl
  exact row.bind fun weights _ => .ok _

end SizeTermTable

namespace Setup

open Evaluation (runOn_bind runOn_alone runAlone_bind)

theorem configured_ofAttributes (columns : List String) (zone : UInt32) (context : Context) :
    Configured ((Evaluator.ofAttributes columns).evaluate zone context).runAlone := by
  have alone (outcome : Outcome (List Double)) :
      (Evaluation.ofOutcome outcome).runAlone = outcome := rfl
  unfold Evaluator.ofAttributes
  rw [alone]
  split
  · exact .error rfl
  · exact .mapM fun column _ => ZoneSystem.configured_attributeOf _ zone column

/-- Work goes on with the rows that the evaluations come to, on any server. -/
theorem runOn_tabulate {σ : Type} (serve : σ → (request : CacheRequest) → request.Answer × σ) (state : σ)
    (kind : Kind) (zones : ZoneSystem) (evaluator : Evaluator) (context : Context) :
    ((tabulate kind zones evaluator context).runOn serve state).1 = do
      checkAlternatives evaluator kind.alternatives kind.evaluator
      let rows ← ((evaluateZones evaluator context kind.alternatives zones.zoneIds.toList).runOn serve state).1
      let table ← rows.foldlM kind.store (.zeros kind.segmentNames zones.maxZone)
      return note table zones kind.name := by
  show ((Evaluation.bind _ _).runOn serve state).1 = _
  rw [runOn_bind]
  cases checkAlternatives evaluator kind.alternatives kind.evaluator with
  | error fault => rfl
  | ok =>
    show ((Evaluation.bind _ _).runOn serve state).1 = _
    rw [runOn_bind]
    cases (evaluateZones evaluator context kind.alternatives zones.zoneIds.toList).runOn serve state with
    | mk rows after =>
      cases rows with
      | error fault => rfl
      | ok rows =>
        show ((Evaluation.bind (.ofOutcome (rows.foldlM kind.store _)) _).runOn serve after).1 =
          rows.foldlM kind.store _ >>= _
        rw [runOn_bind]
        cases rows.foldlM kind.store (.zeros kind.segmentNames zones.maxZone) <;> rfl

theorem configured_evaluateZones (columns : List String) (context : Context) (width : Nat)
    (ids : List UInt32) :
    Configured (evaluateZones (.ofAttributes columns) context width ids).runAlone := by
  induction ids with
  | nil => exact .ok []
  | cons zone rest ih =>
    show Configured (Evaluation.bind _ _).runAlone
    rw [runAlone_bind]
    apply (configured_ofAttributes columns zone context).bind
    intro values _
    show Configured (Evaluation.bind _ _).runAlone
    rw [runAlone_bind]
    have wide : Configured (checkWidth width zone values) := by
      unfold checkWidth
      split
      · exact .ok _
      · exact .error rfl
    apply wide.bind
    intro values _
    show Configured (Evaluation.bind _ _).runAlone
    rw [runAlone_bind]
    exact ih.bind fun others _ => .ok _

theorem configured_storeAll (zone : UInt32) (table : SizeTermTable) (weights : List (Nat × Double)) :
    Configured (storeAll zone table weights) :=
  .foldlM (fun table weight _ => table.configured_set zone weight.1 weight.2) table

theorem configured_checkAlternatives {evaluator : Evaluator} {expected : Nat} (what : String)
    (fits : evaluator.width = expected) : Configured (checkAlternatives evaluator expected what) := by
  unfold checkAlternatives
  rw [if_pos fits]
  exact .ok ()

theorem configured_tabulate {kind : Kind} (zones : ZoneSystem) {columns : List String} (context : Context)
    (fits : columns.length = kind.alternatives) (stored : ∀ table row, Configured (kind.store table row)) :
    Configured (tabulate kind zones (.ofAttributes columns) context).runAlone := by
  have alone := runOn_tabulate Evaluation.alone () kind zones (.ofAttributes columns) context
  simp only [runOn_alone] at alone
  have fits : (Evaluator.ofAttributes columns).width = kind.alternatives := fits
  rw [alone]
  apply (configured_checkAlternatives _ fits).bind
  intro _ _
  apply (configured_evaluateZones columns context kind.alternatives _).bind
  intro rows _
  apply Configured.bind (.foldlM (fun table row _ => stored table row) _)
  exact fun table _ => .ok _

theorem configured_sizeTerms (zones : ZoneSystem) (names columns : List String) (context : Context)
    (fits : columns.length = names.length) :
    Configured (sizeTerms zones names (.ofAttributes columns) context) :=
  configured_tabulate zones context fits fun table row => configured_storeAll row.1 table _

theorem configured_workSizeTerms (zones : ZoneSystem) {columns : List String} (context : Context)
    (fits : columns.length = 6) :
    Configured (workSizeTerms zones (.ofAttributes columns) context) :=
  configured_sizeTerms zones _ columns context (fits.trans (by decide))

/-! ## Schools -/

theorem coded_of_codesOf {indexer : SegmentIndexer} {zones : List (UInt32 × Districts)}
    {codes : List (UInt32 × UInt32)} (built : SchoolSegments.codesOf indexer zones = .ok codes)
    {zone : UInt32} {districts : Districts} (mem : (zone, districts) ∈ zones) :
    Configured (indexer.districtCodes districts) := by
  induction zones generalizing codes with
  | nil => cases mem
  | cons first rest ih =>
    obtain ⟨id, own⟩ := first
    unfold SchoolSegments.codesOf at built
    split at built
    · cases built
    · obtain ⟨pair, coded, built⟩ := bind_eq_ok built
      obtain ⟨more, others, _⟩ := bind_eq_ok built
      rcases List.mem_cons.mp mem with same | mem
      · cases same
        exact coded ▸ .ok pair
      · exact ih others mem

/-- The districts of zones for which school segments were built have codes. -/
theorem coded_of_build {indexer : SegmentIndexer} {zones : ZoneSystem} {school : SchoolSegments}
    (built : SchoolSegments.build indexer zones.districts = .ok school) {zone : Zone}
    (mem : zone ∈ zones.zones.toList) :
    Configured (school.indexer.districtCodes zone.districts) := by
  unfold SchoolSegments.build at built
  obtain ⟨codes, coded, built⟩ := bind_eq_ok built
  obtain ⟨_, _, built⟩ := bind_eq_ok built
  obtain ⟨_, _, built⟩ := bind_eq_ok built
  obtain ⟨_, _, built⟩ := bind_eq_ok built
  obtain ⟨_, _, built⟩ := bind_eq_ok built
  obtain ⟨_, _, built⟩ := bind_eq_ok built
  obtain rfl := Except.ok.inj built
  exact coded_of_codesOf coded (List.mem_map_of_mem mem)

theorem configured_codeIndex_get (index : CodeIndex) (code : UInt32) : Configured (index.get code) := by
  unfold CodeIndex.get
  split
  · exact .ok _
  · exact .error rfl

theorem configured_schoolCells {school : SchoolSegments} {districts : Districts}
    (coded : Configured (school.indexer.districtCodes districts)) :
    Configured (schoolCells school districts) := by
  have grade : Configured (school.gradeSegment districts) :=
    coded.bind fun codes _ => configured_codeIndex_get _ _
  have high : Configured (school.highSegment districts) :=
    coded.bind fun codes _ => configured_codeIndex_get _ _
  exact grade.bind fun grade _ => high.bind fun high _ => .ok _

theorem configured_schoolSizeTerms (zones : ZoneSystem) {school : SchoolSegments}
    {columns : List String} (context : Context) (fits : columns.length = schoolAlternatives)
    (coded : ∀ zone ∈ zones.zones.toList, Configured (school.indexer.districtCodes zone.districts)) :
    Configured (schoolSizeTerms zones school (.ofAttributes columns) context) := by
  refine @configured_tabulate (schools zones school) zones columns context fits fun table row => ?_
  apply (zones.configured_zone row.1).bind
  intro zone found
  apply (configured_schoolCells (coded zone (ZoneSystem.mem_of_zone found))).bind
  exact fun cells _ => configured_storeAll _ _ _

theorem configured_schoolFactors (sizeTerms : SizeTermTable) (school : SchoolSegments)
    (zones : ZoneSystem) (enrollment : String) :
    Configured (schoolFactors sizeTerms school zones enrollment) := by
  have ofZone : ∀ index zone, Configured (zoneFactors sizeTerms school index zone) := by
    intro index zone
    apply (Configured.mapM fun segment _ => sizeTerms.configured_get zone.id segment).bind
    intro sizes _
    split
    · exact .error rfl
    · exact .ok _
  apply (zones.configured_attributeIndex enrollment).bind
  intro index _
  apply Configured.bind (.foldlM _ _)
  · exact fun values _ => .ok _
  · intro cells zone _
    unfold placeFactors
    split
    · exact .error rfl
    · apply (ofZone index zone).bind
      intro factors _
      split
      · exact .error rfl
      · exact .ok _

/-! ## Constants -/

theorem ofConstants_eq_ok {modes : List String} {rows : List (List Double)}
    (fits : ∀ row ∈ rows, row.length = modes.length) :
    Evaluator.ofConstants modes rows = .ok {
      names := modes
      evaluate := fun _ context => .ofOutcome (Evaluator.constantRow rows context.market) } := by
  have none : rows.findIdx? (·.length ≠ modes.length) = none := by
    rw [List.findIdx?_eq_none_iff]
    intro row mem
    simpa using fits row mem
  simp only [Evaluator.ofConstants, none]

theorem configured_constantRow (rows : List (List Double)) (market : Nat) :
    Configured (Evaluator.constantRow rows (some market)) := by
  simp only [Evaluator.constantRow]
  split
  · exact .ok _
  · exact .error rfl

theorem mem_of_constantRow {rows : List (List Double)} {market : Nat} {row : List Double}
    (found : Evaluator.constantRow rows (some market) = .ok row) : row ∈ rows := by
  simp only [Evaluator.constantRow] at found
  split at found
  · rename_i own there
    obtain rfl := Except.ok.inj found
    exact List.mem_of_getElem? there
  · cases found

theorem configured_ofConstants {modes : List String} {rows : List (List Double)}
    (fits : ∀ row ∈ rows, row.length = modes.length) :
    Configured (Evaluator.ofConstants modes rows) := by
  rw [ofConstants_eq_ok fits]
  exact .ok _

/-- Rows with a constant for each mode are exponentiated without complaint of their widths. -/
theorem configured_modeConstants {modes : List String} {rows : List (List Double)}
    {evaluator : Evaluator} (fits : ∀ row ∈ rows, row.length = modes.length)
    (made : Evaluator.ofConstants modes rows = .ok evaluator) (context : Context) :
    Configured (modeConstants evaluator context) := by
  rw [ofConstants_eq_ok fits] at made
  obtain rfl := Except.ok.inj made
  apply Configured.bind (.mapM _)
  · exact fun rows _ => .ok _
  intro market _
  apply (configured_constantRow rows market).bind
  intro row found
  have width : row.length = modes.length := fits row (mem_of_constantRow found)
  split
  · rename_i other
    exact absurd width other
  · exact .ok _

end Setup

end Accessibility
