import Accessibility.Proofs.Evaluation.SizeTerms
import Accessibility.Proofs.Segment.SchoolLayout
import Accessibility.Proofs.Zone.Lookup

/-! School size terms: the five values of each zone, in preschool, in the segments of the zone's own districts,
and in the two kinds of university student. Segments that are built from the zones have five different cells for
each of them (`exists_ownCells`), so no value is stored over another and no district is looked up in vain; only
what the zones are evaluated to can be at fault (`schoolSizeTerms_account`). -/
namespace Accessibility

namespace Setup

variable {σ : Type} {serve : σ → (request : CacheRequest) → request.Answer × σ} {zones : ZoneSystem}
  {indexer : SegmentIndexer} {school : SchoolSegments} {evaluator : Evaluator} {context : Context} {state : σ}
  {evaluations : List (Evaluated σ)} {zone : Zone} {grade high : Nat}

/-- School size terms have a value for each of the segments of a zone's districts. -/
def districtCells (zones : ZoneSystem) (school : SchoolSegments) (id : UInt32) : List Nat :=
  (zones.zone id >>= fun zone => schoolCells school zone.districts).toOption.getD []

theorem schoolCells_eq (own : school.OwnCells zone.districts grade high) :
    schoolCells school zone.districts = .ok (school.cells grade high) := by
  unfold schoolCells
  rw [own.gradeSegment, own.highSegment]
  rfl

theorem districtCells_eq (found : zones.zone zone.id = .ok zone)
    (own : school.OwnCells zone.districts grade high) :
    districtCells zones school zone.id = school.cells grade high := by
  rw [districtCells, found]
  change (schoolCells school zone.districts).toOption.getD [] = _
  rw [schoolCells_eq own]
  rfl

theorem exists_ownCells_of_mem (built : SchoolSegments.build indexer zones.districts = .ok school)
    (member : zone ∈ zones.zones.toList) : ∃ grade high, school.OwnCells zone.districts grade high :=
  SchoolSegments.exists_ownCells built (List.mem_map_of_mem member)

theorem places_schools (ascending : ZoneSystem.Ascending zones.zones.toList)
    (built : SchoolSegments.build indexer zones.districts = .ok school) :
    (schools zones school).Places zones.zoneIds.toList (districtCells zones school) := by
  have each : ∀ id ∈ zones.zoneIds.toList, ∃ zone grade high, zone.id = id ∧ zones.zone zone.id = .ok zone ∧
      school.OwnCells zone.districts grade high := by
    intro id listed
    obtain ⟨zone, member, rfl⟩ := Array.mem_map.mp (Array.mem_toList_iff.mp listed)
    have member := Array.mem_toList_iff.mpr member
    obtain ⟨grade, high, own⟩ := exists_ownCells_of_mem built member
    exact ⟨zone, grade, high, rfl, ZoneSystem.zone_of_mem ascending member, own⟩
  have size : (schools zones school).segmentNames.length = school.size := List.length_map ..
  refine ⟨fun id listed => ?_, fun id listed => ?_, fun id listed => ?_, fun id listed table values _ => ?_⟩
  all_goals
    obtain ⟨zone, grade, high, rfl, found, own⟩ := each id listed
    rw [districtCells_eq found own]
  · rfl
  · exact own.distinct
  · rw [size]
    exact own.within
  · change (zones.zone zone.id >>= fun zone => schoolCells school zone.districts >>= _) = _
    rw [found]
    change (schoolCells school zone.districts >>= _) = _
    rw [schoolCells_eq own]
    rfl

/-- Values of a zone in a table of school segments: in the segments of the zone's own districts and in no
others. -/
structure Lands (school : SchoolSegments) (table : SizeTermTable) (zone : Zone) (values : List Double)
    (grade high : Nat) : Prop extends school.OwnCells zone.districts grade high where
  /-- The cells hold the values in their order. -/
  held : (school.cells grade high).map (table.get zone.id) = values.map .ok
  elsewhere : ∀ segment ∉ school.cells grade high, table.get zone.id segment = .ok .zero
  flag : table.hasSizeTerm zone.id = true ↔ ∃ value ∈ values, value.isPositive = true

/-- What school size terms come to, from the evaluations of the zones. -/
structure SchoolAccount (zones : ZoneSystem) (school : SchoolSegments) (evaluator : Evaluator)
    (evaluations : List (Evaluated σ)) (outcome : Outcome Noted) : Prop where
  turns : evaluations.map Evaluated.zone = zones.zoneIds.toList
  table : (∃ noted, outcome = .ok noted) ↔ evaluator.width = schoolAlternatives ∧
    ∀ evaluated ∈ evaluations, ∃ values, evaluated.Gives schoolAlternatives values ∧
      ∀ value ∈ values, value.IsWeight
  bounds : ∀ noted, outcome = .ok noted →
    noted.table.segmentNames = school.table.names ∧ noted.table.maxZone = zones.maxZone
  lands : ∀ noted, outcome = .ok noted → ∀ zone ∈ zones.zones.toList, ∀ evaluated ∈ evaluations,
    evaluated.zone = zone.id → ∀ values, evaluated.outcome = .ok values →
      ∃ grade high, Lands school noted.table zone values grade high
  otherRow : ∀ noted, outcome = .ok noted → ∀ id ∉ zones.zoneIds,
    noted.table.row id = .ok (if id ≤ zones.maxZone then List.replicate school.size .zero else []) ∧
      noted.table.hasSizeTerm id = false
  /-- There is no fault but those of the evaluator and its values. -/
  fault : ∀ fault, outcome = .error fault ↔
    (schools zones school).Ends (districtCells zones school) evaluator evaluations fault

theorem schoolAccount (ascending : ZoneSystem.Ascending zones.zones.toList)
    (built : SchoolSegments.build indexer zones.districts = .ok school) (evaluator : Evaluator) (context : Context)
    (turns : evaluator.inTurn serve context zones.zoneIds.toList state = evaluations) :
    SchoolAccount zones school evaluator evaluations
      ((tabulate (schools zones school) zones evaluator context).runOn serve state).1 := by
  have places := places_schools ascending built
  have size : (schools zones school).segmentNames.length = school.size := List.length_map ..
  refine ⟨map_zone_of_turns turns, exists_tabulate_iff places ascending turns,
    fun noted done => (holds_of_tabulate places ascending turns done).1, ?_,
    fun noted done id other => size ▸ row_of_tabulate places ascending turns done other,
    fun fault => tabulate_eq_error_iff places ascending turns⟩
  intro noted done zone member evaluated there own values came
  obtain ⟨-, gives, holds⟩ := holds_of_tabulate places ascending turns done
  obtain ⟨grade, high, five⟩ := exists_ownCells_of_mem built member
  have cells := districtCells_eq (ZoneSystem.zone_of_mem ascending member) five
  obtain rfl := Evaluated.values_eq came
  refine ⟨grade, high, five, ?_, ?_, ?_⟩
  · have wide : (school.cells grade high).length = evaluated.values.length := (gives evaluated there).2.symm
    refine List.ext_getElem (by simpa using wide) fun place inside inside' => ?_
    rw [List.length_map] at inside inside'
    rw [List.getElem_map, List.getElem_map, ← own]
    refine holds.placed evaluated there place _ _ ?_ (List.getElem?_eq_getElem inside')
    rw [own, cells, List.getElem?_eq_getElem inside]
  · intro segment other
    exact holds.elsewhere zone.id segment fun _ _ _ => cells ▸ other
  · rw [holds.flags]
    constructor
    · rintro ⟨other, there', same, value, given, positive⟩
      obtain rfl := List.inj_on_of_nodup_map (nodup_zone_of_turns ascending turns) there' there (same.trans own.symm)
      exact ⟨value, given, positive⟩
    · rintro ⟨value, given, positive⟩
      exact ⟨evaluated, there, own, value, given, positive⟩

/-- The account of school size terms over segments that are built from the zones, under any offset. It is the
same without a cache and over one, whoever else uses it. -/
theorem schoolSizeTerms_account (ascending : ZoneSystem.Ascending zones.zones.toList)
    (built : SchoolSegments.build indexer zones.districts = .ok school) (evaluator : Evaluator)
    (context : Context) :
    SchoolAccount zones school evaluator
        (zones.zoneIds.toList.map fun id => ⟨id, (evaluator.evaluate id context).runAlone, ()⟩)
        (schoolSizeTerms zones school evaluator context) ∧
      ∀ {σ : Type} (serve : σ → (request : CacheRequest) → request.Answer × σ) (state : σ),
        SchoolAccount zones school evaluator (evaluator.inTurn serve context zones.zoneIds.toList state)
          ((tabulate (schools zones school) zones evaluator context).runOn serve state).1 := by
  refine ⟨?_, fun serve state => schoolAccount ascending built evaluator context rfl⟩
  have account := schoolAccount ascending built evaluator context
    (Evaluator.inTurn_alone evaluator context zones.zoneIds.toList ())
  rwa [Evaluation.runOn_alone] at account

/-- Two zones in the same districts, and one in a unified district between them. -/
def districted : ZoneSystem :=
  ⟨[], #[⟨1, .zero, .zero, ⟨4, 20⟩, []⟩, ⟨2, .zero, .zero, ⟨0, 21⟩, []⟩, ⟨5, .zero, .zero, ⟨4, 20⟩, []⟩]⟩

/-- One to five. -/
def counting : List Double :=
  [.one, ⟨0x4000000000000000⟩, ⟨0x4008000000000000⟩, ⟨0x4010000000000000⟩, ⟨0x4014000000000000⟩]

/-- The five values of a zone in a unified district in the segments of that district. -/
theorem schoolSizeTerms_account_unified :
    ZoneSystem.Ascending districted.zones.toList ∧
      ∃ school, SchoolSegments.build .standard districted.districts = .ok school ∧
        ∃ noted, schoolSizeTerms districted school
            (.ofFunction ["preschool", "grade", "high", "typical", "other"] fun _ _ => .ok counting) {} = .ok noted ∧
          [0, 2, 4, 5, 6].map (noted.table.get 2) = counting.map .ok ∧
            (noted.table.get 2 1 = .ok .zero ∧ noted.table.get 2 3 = .ok .zero) ∧
              noted.table.hasSizeTerm 2 = true ∧ noted.table.hasSizeTerm 3 = false := by
  have ascending : ZoneSystem.Ascending districted.zones.toList := by
    simp [ZoneSystem.Ascending, districted]
  have built : SchoolSegments.build .standard districted.districts =
      .ok (.ofCodes .standard [4, 1000021] [20, 1000021]) := SchoolSegments.build_of_fits (by decide)
  have ids : districted.zoneIds.toList = [1, 2, 5] := by simp [ZoneSystem.zoneIds, districted]
  have account := (schoolSizeTerms_account ascending built
    (.ofFunction ["preschool", "grade", "high", "typical", "other"] fun _ _ => .ok counting) {}).1
  rw [ids] at account
  have weights : ∀ value ∈ counting, value.IsWeight := by decide
  obtain ⟨noted, done⟩ := account.table.mpr ⟨rfl, List.forall_mem_map.mpr fun id _ => ⟨_, ⟨rfl, rfl⟩, weights⟩⟩
  obtain ⟨grade, high, lands⟩ := account.lands noted done ⟨2, .zero, .zero, ⟨0, 21⟩, []⟩ (by simp [districted])
    ⟨2, _, ()⟩ (List.mem_cons_of_mem _ List.mem_cons_self) rfl counting rfl
  have grades : SchoolSegments.gradeSegment (.ofCodes .standard [4, 1000021] [20, 1000021]) ⟨0, 21⟩ = .ok 2 := by
    decide +kernel
  have highs : SchoolSegments.highSegment (.ofCodes .standard [4, 1000021] [20, 1000021]) ⟨0, 21⟩ = .ok 4 := by
    decide +kernel
  obtain rfl : grade = 2 := Except.ok.inj (lands.gradeSegment.symm.trans grades)
  obtain rfl : high = 4 := Except.ok.inj (lands.highSegment.symm.trans highs)
  refine ⟨ascending, _, built, noted, done, lands.held,
    ⟨lands.elsewhere 1 (by decide), lands.elsewhere 3 (by decide)⟩, lands.flag.mpr ⟨.one, List.mem_cons_self, by decide⟩, ?_⟩
  exact (account.otherRow noted done 3 (by simp [ZoneSystem.zoneIds, districted])).2

end Setup

end Accessibility
