import Accessibility.Proofs.Evaluation.Factors

/-! School segment factors, over size terms that are computed for the same zones and segments. The segments of a
zone's factors are all there are, each once, so a zone's row is written as a whole and no other row with it
(`foldlM_placeFactors`). The widths of zones, segments and size terms agree, so nothing can be wrong but the name
of the attribute, and each row is what the size terms of its zone make it (`schoolFactors_account`). There are so
few districts that no lookup counts beyond a word (`size_le_of_build`). -/
namespace Accessibility

namespace Double

variable {x y : Double}

theorem ofMagnitude_of_isZero (zero : x.isZero = true) : ofMagnitude x.signed 0 = x := by
  have none : x.magnitude = 0 := by simpa [isZero] using zero
  obtain ⟨bits⟩ := x
  have bound : bits.toNat < 2 ^ 64 := bits.toNat_lt
  change bits.toNat % 0x8000000000000000 = 0 at none
  unfold ofMagnitude signed
  dsimp only
  congr 1
  apply UInt64.toNat_inj.mp
  split
  all_goals
    next sign =>
      simp only [decide_eq_true_eq] at sign
      simp
      omega

/-- The number that sums start from leaves every number as it is. -/
theorem neg_zero_add (finite : x.isFinite = true) : -zero + x = x := by
  have start : (-zero).isNaN = false ∧ (-zero).isFinite = true ∧ (-zero).isZero = true ∧
      (-zero).signed = true := by
    decide
  obtain ⟨number, bounded, none, sign⟩ := start
  show add (-zero) x = x
  unfold add addFinite
  simp only [number, isNaN_of_isFinite finite, bounded, finite, none, sign, Bool.true_and, Bool.not_true,
    Bool.false_eq_true, ↓reduceIte]
  split
  next zero => exact ofMagnitude_of_isZero zero
  next => rfl

theorem sum_pair (finite : x.isFinite = true) : sum [x, y] = x + y := by
  show -zero + x + y = x + y
  rw [neg_zero_add finite]

end Double

/-! ## Room -/

namespace SchoolSegments

variable {indexer : SegmentIndexer} {names : List String} {records : List Zone} {zones : ZoneSystem}
  {school : SchoolSegments}

/-- Districts below a bound have at most twice as many codes in a family. -/
theorem length_familyCodes_le (indexer : SegmentIndexer) {bound : Nat} {pairs : List Districts}
    {own : Districts → UInt32}
    (below : ∀ pair ∈ pairs, (own pair).toNat < bound ∧ pair.high.toNat < bound) :
    (distinctCodes (pairs.map fun pair => indexer.familyCode pair (own pair))).length ≤ bound + bound := by
  have distinct : (distinctCodes (pairs.map fun pair => indexer.familyCode pair (own pair))).Nodup :=
    (pairwise_distinctCodes _).imp UInt32.ne_of_lt
  have among : distinctCodes (pairs.map fun pair => indexer.familyCode pair (own pair)) ⊆
      (List.range bound).map Nat.toUInt32 ++ (List.range bound).map (indexer.offset + ·.toUInt32) := by
    intro code listed
    obtain ⟨pair, member, rfl⟩ := List.mem_map.mp (mem_distinctCodes.mp listed)
    obtain ⟨plain, unified⟩ := below pair member
    unfold SegmentIndexer.familyCode
    split
    · exact List.mem_append_right _ (List.mem_map.mpr ⟨_, List.mem_range.mpr unified, by simp⟩)
    · exact List.mem_append_left _ (List.mem_map.mpr ⟨_, List.mem_range.mpr plain, by simp⟩)
  simpa using (distinct.subperm among).length_le

/-- The districts of a zone system are below a million, so there are not many more than four million segments. -/
theorem size_le_of_build (listed : ZoneSystem.ofZones names records = .ok zones)
    (built : build indexer zones.districts = .ok school) : school.size ≤ 4000003 := by
  obtain ⟨-, rfl⟩ := build_eq_ok built
  have below : ∀ pair ∈ zones.districts.map (·.2),
      pair.grade.toNat < unifiedDistrictOffset.toNat ∧ pair.high.toNat < unifiedDistrictOffset.toNat := by
    intro pair member
    obtain ⟨_, pair, rfl⟩ := List.mem_map.mp member
    obtain ⟨zone, there, rfl⟩ := List.mem_map.mp pair
    exact (ZoneSystem.flaw?_eq_none_iff.mp (ZoneSystem.flaw?_of_ofZones listed zone there)).2
  have grades := length_familyCodes_le indexer below
  have highs := length_familyCodes_le indexer fun pair member =>
    ⟨(below pair member).2, (below pair member).2⟩
  have offset : unifiedDistrictOffset.toNat = 1000000 := rfl
  rw [offset] at grades highs
  rw [size_ofCodes]
  unfold SegmentIndexer.gradeCode SegmentIndexer.highCode
  omega

end SchoolSegments

theorem ZoneSystem.attributeIndex_cases (zones : ZoneSystem) (name : String) :
    (∃ index, zones.attributeIndex name = .ok index ∧ zones.attributeNames[index]? = some name) ∨
      name ∉ zones.attributeNames ∧
        zones.attributeIndex name = .error (.unknownName "zone attribute" name zones.attributeNames) := by
  unfold attributeIndex
  split
  next index found =>
    obtain ⟨inside, same, -⟩ := List.findIdx?_eq_some_iff_getElem.mp found
    refine .inl ⟨index, rfl, ?_⟩
    rw [List.getElem?_eq_getElem inside, of_decide_eq_true same]
  next missing =>
    refine .inr ⟨fun listed => ?_, rfl⟩
    simpa using List.findIdx?_eq_none_iff.mp missing name listed

theorem ZoneSystem.attributeOf_of_getElem? {zones : ZoneSystem} {zone : Zone} {name : String} {index : Nat}
    {value : Double} (ascending : Ascending zones.zones.toList) (found : zones.attributeIndex name = .ok index)
    (member : zone ∈ zones.zones.toList) (held : zone.attributes[index]? = some value) :
    zones.attributeOf zone.id name = .ok value := by
  refine bind_eq_ok_iff.mpr ⟨index, found, bind_eq_ok_iff.mpr ⟨zone, zone_of_mem ascending member, ?_⟩⟩
  rw [held]

namespace Setup

variable {σ : Type} {serve : σ → (request : CacheRequest) → request.Answer × σ} {names : List String}
  {records : List Zone} {zones : ZoneSystem} {indexer : SegmentIndexer} {school : SchoolSegments}
  {evaluator : Evaluator} {context : Context} {state : σ} {noted : Noted} {sizeTerms : SizeTermTable}
  {factors : SegmentFactors} {cells : Array Double} {zone : Zone} {index : Nat} {typical other pupils : Double}

/-! ## Rows -/

theorem zoneFactors_eq (typical_eq : sizeTerms.get zone.id school.univTypical = .ok typical)
    (other_eq : sizeTerms.get zone.id school.univNonTypical = .ok other)
    (pupils_eq : zone.attributes[index]? = some pupils) :
    zoneFactors sizeTerms school index zone =
      .ok (school.nonUniversitySegments.map (·, .one) ++
        school.universitySegments.map (·, universityFactor pupils (Double.sum [typical, other]))) := by
  unfold zoneFactors SchoolSegments.universitySegments
  simp only [List.mapM_cons, List.mapM_nil, typical_eq, other_eq, pupils_eq]
  rfl

theorem placeFactors_of_given {weights : List (Nat × Double)} (within : zone.id ≤ sizeTerms.maxZone)
    (given : zoneFactors sizeTerms school index zone = .ok weights)
    (dense : weights.map Prod.fst = List.range sizeTerms.width) :
    placeFactors sizeTerms school index cells zone =
      .ok (writeFactors cells (zone.id.toNat * sizeTerms.width) weights) := by
  have inside : weights.any (fun weight => decide (sizeTerms.width ≤ weight.1)) = false := by
    rw [List.any_eq_false]
    intro weight member
    have below : weight.1 ∈ List.range sizeTerms.width := dense ▸ List.mem_map_of_mem member
    simpa using below
  unfold placeFactors
  rw [if_neg (UInt32.not_lt.mpr within), given]
  show (if weights.any (fun weight => decide (sizeTerms.width ≤ weight.1)) then _ else _) = _
  rw [inside]
  rfl

/-- Rows of cells that hold the factors of their zones, and are as they were where there is no zone. -/
structure Rowed (sizeTerms : SizeTermTable) (school : SchoolSegments) (index : Nat) (listed : List Zone)
    (cells after : Array Double) : Prop where
  size : after.size = cells.size
  placed : ∀ zone ∈ listed, ∀ weights, zoneFactors sizeTerms school index zone = .ok weights →
    ∀ segment value, (segment, value) ∈ weights →
      after[zone.id.toNat * sizeTerms.width + segment]? = some value
  elsewhere : ∀ id segment, (∀ zone ∈ listed, zone.id.toNat ≠ id) → segment < sizeTerms.width →
    after[id * sizeTerms.width + segment]? = cells[id * sizeTerms.width + segment]?

/-- The rows of zones that ascend are written one after the other, whatever was there before. -/
theorem foldlM_placeFactors {listed : List Zone} (ascending : ZoneSystem.Ascending listed)
    (within : ∀ zone ∈ listed, zone.id ≤ sizeTerms.maxZone)
    (given : ∀ zone ∈ listed, ∃ weights, zoneFactors sizeTerms school index zone = .ok weights ∧
      weights.map Prod.fst = List.range sizeTerms.width)
    (size : cells.size = (sizeTerms.maxZone.toNat + 1) * sizeTerms.width) :
    ∃ after, listed.foldlM (placeFactors sizeTerms school index) cells = .ok after ∧
      Rowed sizeTerms school index listed cells after := by
  induction listed generalizing cells with
  | nil => exact ⟨cells, rfl, rfl, nofun, fun _ _ _ _ => rfl⟩
  | cons zone rest ih =>
    obtain ⟨low, ascending⟩ := List.pairwise_cons.mp ascending
    obtain ⟨here, within⟩ := List.forall_mem_cons.mp within
    obtain ⟨⟨weights, own, dense⟩, given⟩ := List.forall_mem_cons.mp given
    have below : ∀ weight ∈ weights, weight.1 < sizeTerms.width := fun weight member =>
      List.mem_range.mp (dense ▸ List.mem_map_of_mem member)
    have written : (writeFactors cells (zone.id.toNat * sizeTerms.width) weights).size =
        (sizeTerms.maxZone.toNat + 1) * sizeTerms.width := (size_writeFactors ..).trans size
    obtain ⟨after, done, rowed⟩ := ih ascending within given written
    refine ⟨after, ?_, rowed.size.trans (size_writeFactors ..), ?_, ?_⟩
    · rw [List.foldlM_cons, placeFactors_of_given here own dense]
      exact done
    · rw [List.forall_mem_cons]
      refine ⟨fun weights' own' segment value member => ?_, rowed.placed⟩
      obtain rfl := Except.ok.inj (own.symm.trans own')
      have inside := below _ member
      have reach : (zone.id.toNat + 1) * sizeTerms.width ≤ cells.size :=
        size ▸ Nat.mul_le_mul_right _ (Nat.succ_le_succ here)
      -- Later zones have greater ids, so the row just written is none of theirs.
      rw [rowed.elsewhere _ segment (fun later there same => UInt32.ne_of_lt (low later there)
        (UInt32.toNat_inj.mp same.symm)) inside]
      refine getElem?_writeFactors_of_mem (dense ▸ List.nodup_range) member ?_
      rw [Nat.succ_mul] at reach
      omega
    · intro id segment apart inside
      obtain ⟨first, others⟩ := List.forall_mem_cons.mp apart
      rw [rowed.elsewhere id segment others inside]
      exact getElem?_writeFactors_of_forall fun weight member =>
        SizeTermTable.cell_ne first (below weight member) inside

/-- A factor is looked up in its cell, as long as the width leaves room for all ids in a word. -/
theorem get_eq_of_cell {id : UInt32} {segment : Nat} {value : Double} (shaped : Shaped sizeTerms factors)
    (room : sizeTerms.width ≤ UInt32.size) (inside : segment < sizeTerms.width)
    (cell : factors.values[id.toNat * sizeTerms.width + segment]? = some value) :
    factors.get id segment.toUInt64 = .ok value := by
  have words : UInt32.size * UInt32.size = UInt64.size := rfl
  have rows : (id.toNat + 1) * sizeTerms.width ≤ UInt32.size * UInt32.size :=
    Nat.mul_le_mul id.toNat_lt_size room
  rw [Nat.succ_mul] at rows
  have column : segment.toUInt64.toNat = segment := UInt64.toNat_ofNat_of_lt (by omega)
  have counted : id.toNat * sizeTerms.width + segment < UInt64.size := by omega
  have place : id.toNat * factors.segments + segment.toUInt64.toNat = id.toNat * sizeTerms.width + segment := by
    rw [shaped.segments, column]
  rw [SegmentFactors.get_eq (place ▸ counted), place, cell]
  rfl

/-! ## The account -/

/-- What school segment factors come to, over size terms of the same zones and segments. -/
structure FactorAccount (zones : ZoneSystem) (school : SchoolSegments) (sizeTerms : SizeTermTable)
    (enrollment : String) (outcome : Outcome SegmentFactors) : Prop where
  /-- There are factors exactly if there is the attribute. -/
  factors : (∃ factors, outcome = .ok factors) ↔ enrollment ∈ zones.attributeNames
  /-- There is no fault but that of an unknown name. -/
  fault : ∀ fault, outcome = .error fault ↔ enrollment ∉ zones.attributeNames ∧
    fault = .unknownName "zone attribute" enrollment zones.attributeNames
  /-- A segment belongs to the university or does not, and there are no others. -/
  segments : school.nonUniversitySegments ++ school.universitySegments = List.range school.size
  outside : ∀ factors, outcome = .ok factors → ∀ zone ∈ zones.zones.toList,
    ∀ segment ∈ school.nonUniversitySegments, factors.get zone.id segment.toUInt64 = .ok .one
  university : ∀ factors, outcome = .ok factors → ∀ zone ∈ zones.zones.toList, ∃ typical other pupils,
    sizeTerms.get zone.id school.univTypical = .ok typical ∧
      sizeTerms.get zone.id school.univNonTypical = .ok other ∧
        zones.attributeOf zone.id enrollment = .ok pupils ∧
          ∀ segment ∈ school.universitySegments, factors.get zone.id segment.toUInt64 =
            .ok (if (typical + other).isZero then .zero else pupils / (typical + other))
  otherRow : ∀ factors, outcome = .ok factors → ∀ id ∉ zones.zoneIds, id ≤ zones.maxZone →
    ∀ segment < school.size, factors.get id segment.toUInt64 = .ok .zero

/-- The account of school size terms, of zones that make a system. -/
theorem account_of_ofZones (listed : ZoneSystem.ofZones names records = .ok zones)
    (built : SchoolSegments.build indexer zones.districts = .ok school) (evaluator : Evaluator) (context : Context)
    (serve : σ → (request : CacheRequest) → request.Answer × σ) (state : σ) :
    SchoolAccount zones school evaluator (evaluator.inTurn serve context zones.zoneIds.toList state)
      ((tabulate (schools zones school) zones evaluator context).runOn serve state).1 :=
  schoolAccount (ZoneSystem.ascending_of_ofZones listed) built evaluator context rfl

section Account

variable (listed : ZoneSystem.ofZones names records = .ok zones)
  (built : SchoolSegments.build indexer zones.districts = .ok school)
  (computed : ((tabulate (schools zones school) zones evaluator context).runOn serve state).1 = .ok noted)

include listed built computed

/-- The table of size terms reaches as far as the zones and is as wide as there are segments. -/
theorem bounds_of_computed : noted.table.maxZone = zones.maxZone ∧ noted.table.width = school.size := by
  obtain ⟨segmentNames, maxZone⟩ :=
    (account_of_ofZones listed built evaluator context serve state).bounds noted computed
  refine ⟨maxZone, ?_⟩
  rw [SizeTermTable.width, segmentNames]
  exact List.length_map ..

/-- The two university size terms of a zone are numbers. -/
theorem exists_universityTerms (member : zone ∈ zones.zones.toList) : ∃ typical other,
    noted.table.get zone.id school.univTypical = .ok typical ∧
      noted.table.get zone.id school.univNonTypical = .ok other ∧ typical.isFinite = true := by
  have account := account_of_ofZones listed built evaluator context serve state
  have turn : zone.id ∈ (evaluator.inTurn serve context zones.zoneIds.toList state).map Evaluated.zone := by
    rw [account.turns, ZoneSystem.zoneIds, Array.toList_map]
    exact List.mem_map_of_mem member
  obtain ⟨evaluated, there, own⟩ := List.mem_map.mp turn
  obtain ⟨values, ⟨came, five⟩, weights⟩ := (account.table.mp ⟨noted, computed⟩).2 evaluated there
  obtain ⟨grade, high, lands⟩ := account.lands noted computed zone member evaluated there own values came
  have held (place : Nat) := congrArg (·[place]?) lands.held
  have fourth : 3 < values.length := five ▸ (by decide : 3 < schoolAlternatives)
  have fifth : 4 < values.length := five ▸ (by decide : 4 < schoolAlternatives)
  refine ⟨values[3], values[4], ?_, ?_, (weights _ (List.getElem_mem fourth)).1⟩
  · simpa [SchoolSegments.cells, fourth] using held 3
  · simpa [SchoolSegments.cells, fifth] using held 4

/-- The factors of a zone, from its two university size terms and its pupils. -/
theorem exists_zoneFactors {enrollment : String} (named : zones.attributeNames[index]? = some enrollment)
    (member : zone ∈ zones.zones.toList) : ∃ typical other pupils,
      noted.table.get zone.id school.univTypical = .ok typical ∧
        noted.table.get zone.id school.univNonTypical = .ok other ∧ zone.attributes[index]? = some pupils ∧
          zoneFactors noted.table school index zone = .ok (school.nonUniversitySegments.map (·, .one) ++
            school.universitySegments.map (·, universityFactor pupils (typical + other))) := by
  obtain ⟨typical, other, typical_eq, other_eq, finite⟩ := exists_universityTerms listed built computed member
  have wide := (ZoneSystem.flaw?_eq_none_iff.mp (ZoneSystem.flaw?_of_ofZones listed zone member)).1
  have inside : index < zone.attributes.length := wide ▸ (List.getElem?_eq_some_iff.mp named).1
  have pupils_eq := List.getElem?_eq_getElem inside
  refine ⟨typical, other, _, typical_eq, other_eq, pupils_eq, ?_⟩
  rw [zoneFactors_eq typical_eq other_eq pupils_eq, Double.sum_pair finite]

/-- With an attribute that there is all rows are written. -/
theorem exists_rowed {enrollment : String} (found : zones.attributeIndex enrollment = .ok index)
    (named : zones.attributeNames[index]? = some enrollment) :
    ∃ factors, schoolFactors noted.table school zones enrollment = .ok factors ∧ Shaped noted.table factors ∧
      Rowed noted.table school index zones.zones.toList
        (Array.replicate ((noted.table.maxZone.toNat + 1) * noted.table.width) .zero) factors.values := by
  have ascending := ZoneSystem.ascending_of_ofZones listed
  obtain ⟨maxZone, width⟩ := bounds_of_computed listed built computed
  obtain ⟨_, _, layout⟩ := SchoolSegments.layout_of_build built
  have within : ∀ zone ∈ zones.zones.toList, zone.id ≤ noted.table.maxZone := fun zone member =>
    maxZone ▸ ZoneSystem.id_le_maxZone ascending (Array.mem_map_of_mem (Array.mem_toList_iff.mp member))
  have given : ∀ zone ∈ zones.zones.toList, ∃ weights, zoneFactors noted.table school index zone = .ok weights ∧
      weights.map Prod.fst = List.range noted.table.width := by
    intro zone member
    obtain ⟨typical, other, pupils, -, -, -, own⟩ := exists_zoneFactors listed built computed named member
    refine ⟨_, own, ?_⟩
    rw [width, ← layout.dense]
    simp [Function.comp_def]
  obtain ⟨values, done, rowed⟩ := foldlM_placeFactors ascending within given
    Array.size_replicate
  have made : schoolFactors noted.table school zones enrollment = .ok ⟨noted.table.width, values⟩ :=
    bind_eq_ok_iff.mpr ⟨index, found, bind_eq_ok_iff.mpr ⟨values, done, rfl⟩⟩
  exact ⟨_, made, shaped_of_schoolFactors made, rowed⟩

/-- There are so few segments that every place of an id and a segment is counted in a word. -/
theorem get_of_cell (shaped : Shaped noted.table factors) {id : UInt32} {segment : Nat} {value : Double}
    (inside : segment < school.size)
    (cell : factors.values[id.toNat * noted.table.width + segment]? = some value) :
    factors.get id segment.toUInt64 = .ok value := by
  have width := (bounds_of_computed listed built computed).2
  have room : noted.table.width ≤ UInt32.size :=
    width ▸ (SchoolSegments.size_le_of_build listed built).trans (by decide)
  exact get_eq_of_cell shaped room (width ▸ inside) cell

/-- In a row of no zone there is nothing but what the cells are filled with. -/
theorem get_of_unlisted (shaped : Shaped noted.table factors)
    (rowed : Rowed noted.table school index zones.zones.toList
      (Array.replicate ((noted.table.maxZone.toNat + 1) * noted.table.width) .zero) factors.values)
    {id : UInt32} (unlisted : id ∉ zones.zoneIds) (within : id ≤ zones.maxZone) {segment : Nat}
    (inside : segment < school.size) : factors.get id segment.toUInt64 = .ok .zero := by
  obtain ⟨maxZone, width⟩ := bounds_of_computed listed built computed
  refine get_of_cell listed built computed shaped inside ?_
  rw [← width] at inside
  have apart : ∀ zone ∈ zones.zones.toList, zone.id.toNat ≠ id.toNat := fun zone member same =>
    unlisted (UInt32.toNat_inj.mp same ▸ Array.mem_map_of_mem (Array.mem_toList_iff.mp member))
  have reach : (id.toNat + 1) * noted.table.width ≤ (noted.table.maxZone.toNat + 1) * noted.table.width :=
    Nat.mul_le_mul_right _ (Nat.succ_le_succ (maxZone ▸ within))
  rw [Nat.succ_mul] at reach
  rw [rowed.elsewhere id.toNat segment apart inside, Array.getElem?_replicate, if_pos (by omega)]

/-- The account of school segment factors, for any zones that make a system, any offset of the segments and any
evaluator, with or without a cache. -/
theorem schoolFactors_account (enrollment : String) :
    FactorAccount zones school noted.table enrollment (schoolFactors noted.table school zones enrollment) := by
  have ascending := ZoneSystem.ascending_of_ofZones listed
  obtain ⟨_, _, layout⟩ := SchoolSegments.layout_of_build built
  rcases zones.attributeIndex_cases enrollment with ⟨index, found, named⟩ | ⟨absent, failed⟩
  case inr =>
    have outcome : schoolFactors noted.table school zones enrollment =
        .error (.unknownName "zone attribute" enrollment zones.attributeNames) := by
      rw [schoolFactors, failed]
      rfl
    rw [outcome]
    exact {
      factors := iff_of_false nofun absent
      fault := fun fault => ⟨fun same => ⟨absent, (Except.error.inj same).symm⟩, fun same => same.2 ▸ rfl⟩
      segments := layout.dense
      outside := nofun
      university := nofun
      otherRow := nofun }
  case inl =>
    obtain ⟨factors, made, shaped, rowed⟩ := exists_rowed listed built computed found named
    have known := List.mem_of_getElem? named
    have inside (segment : Nat) (member : segment ∈ school.nonUniversitySegments ++ school.universitySegments) :
        segment < school.size := List.mem_range.mp (layout.dense ▸ member)
    rw [made]
    refine ⟨iff_of_true ⟨_, rfl⟩ known, fun fault => ⟨nofun, fun other => absurd known other.1⟩, layout.dense,
      ?outside, ?university, ?otherRow⟩
    case outside =>
      rintro _ ⟨⟩ zone member segment own
      obtain ⟨typical, other, pupils, -, -, -, given⟩ := exists_zoneFactors listed built computed named member
      refine get_of_cell listed built computed shaped (inside segment (List.mem_append_left _ own))
        (rowed.placed zone member _ given segment .one ?_)
      exact List.mem_append_left _ (List.mem_map_of_mem own)
    case university =>
      rintro _ ⟨⟩ zone member
      obtain ⟨typical, other, pupils, typical_eq, other_eq, held, given⟩ :=
        exists_zoneFactors listed built computed named member
      refine ⟨typical, other, pupils, typical_eq, other_eq,
        ZoneSystem.attributeOf_of_getElem? ascending found member held, fun segment own => ?_⟩
      refine get_of_cell listed built computed shaped (inside segment (List.mem_append_right _ own))
        (rowed.placed zone member _ given segment _ ?_)
      exact List.mem_append_right _ (List.mem_map_of_mem own)
    case otherRow =>
      rintro _ ⟨⟩ id unlisted within segment below
      exact get_of_unlisted listed built computed shaped rowed unlisted within below

end Account

/-- A zone without a university, and one with thirty pupils at a university of size three. -/
def townZone : Zone := ⟨1, .zero, .zero, ⟨4, 20⟩, [.one]⟩

def campusZone : Zone := ⟨3, .zero, .zero, ⟨0, 21⟩, [⟨0x403E000000000000⟩]⟩

def campus : ZoneSystem := ⟨["pupils"], #[townZone, campusZone]⟩

theorem ofZones_campus : ZoneSystem.ofZones ["pupils"] [campusZone, townZone] = .ok campus := by
  have sorted : ZoneSystem.ordered [campusZone, townZone] = [townZone, campusZone] := by
    simp [ZoneSystem.ordered, List.mergeSort, List.MergeSort.Internal.splitInTwo, campusZone, townZone]
  simp only [ZoneSystem.ofZones, sorted]
  decide +kernel

def campusSegments : SchoolSegments := .ofCodes .standard [4, 1000021] [20, 1000021]

/-- One for each of the schools, and in one zone one and two for the university. -/
def campusEvaluator : Evaluator :=
  .ofFunction ["preschool", "grade", "high", "typical", "other"] fun id _ =>
    .ok (if id = 3 then [.one, .one, .one, .one, ⟨0x4000000000000000⟩] else [.one, .one, .one, .zero, -.zero])

def campusTerms : Outcome Noted := schoolSizeTerms campus campusSegments campusEvaluator {}

theorem exists_campusTerms : ∃ noted, campusTerms = .ok noted ∧
    (noted.table.get 1 5 = .ok .zero ∧ noted.table.get 1 6 = .ok (-.zero)) ∧
      noted.table.get 3 5 = .ok .one ∧ noted.table.get 3 6 = .ok ⟨0x4000000000000000⟩ := by
  have computed : (do
      let noted ← campusTerms
      return [noted.table.get 1 5, noted.table.get 1 6, noted.table.get 3 5, noted.table.get 3 6]) =
        .ok [.ok .zero, .ok (-.zero), .ok .one, .ok ⟨0x4000000000000000⟩] := by
    decide +kernel
  obtain ⟨noted, terms, sizes⟩ := bind_eq_ok computed
  have sizes := Except.ok.inj sizes
  simp only [List.cons.injEq, and_true] at sizes
  exact ⟨noted, terms, ⟨sizes.1, sizes.2.1⟩, sizes.2.2⟩

/-- A university segment has the pupils over the size, or none without a size, and an unknown name is a fault. -/
theorem schoolFactors_account_campus :
    SchoolSegments.build .standard campus.districts = .ok campusSegments ∧
      ∃ noted factors, campusTerms = .ok noted ∧
        schoolFactors noted.table campusSegments campus "pupils" = .ok factors ∧
          factors.get 3 5 = .ok ⟨0x4024000000000000⟩ ∧ factors.get 3 4 = .ok .one ∧
            factors.get 1 6 = .ok .zero ∧ factors.get 2 0 = .ok .zero ∧
              ∃ fault, schoolFactors noted.table campusSegments campus "students" = .error fault := by
  have built : SchoolSegments.build .standard campus.districts = .ok campusSegments := by decide +kernel
  obtain ⟨noted, terms, ⟨town, towns⟩, large, larger⟩ := exists_campusTerms
  have computed : ((tabulate (schools campus campusSegments) campus campusEvaluator {}).runOn
      Evaluation.alone ()).1 = .ok noted := by
    rw [Evaluation.runOn_alone]
    exact terms
  have account := schoolFactors_account ofZones_campus built computed "pupils"
  have unknown := schoolFactors_account ofZones_campus built computed "students"
  obtain ⟨factors, done⟩ := account.factors.mpr (by decide)
  refine ⟨built, noted, factors, terms, done, ?student, ?school, ?town, ?unused, _,
    (unknown.fault _).mpr ⟨by decide, rfl⟩⟩
  case student =>
    obtain ⟨typical, other, pupils, typical_eq, other_eq, pupils_eq, own⟩ :=
      account.university factors done campusZone (by simp [campus])
    obtain rfl : typical = .one := Except.ok.inj (typical_eq.symm.trans large)
    obtain rfl : other = ⟨0x4000000000000000⟩ := Except.ok.inj (other_eq.symm.trans larger)
    obtain rfl : pupils = ⟨0x403E000000000000⟩ := by
      have held : campus.attributeOf 3 "pupils" = .ok ⟨0x403E000000000000⟩ := by decide +kernel
      exact Except.ok.inj (pupils_eq.symm.trans held)
    exact (own 5 (by decide)).trans (by decide +kernel)
  case school => exact account.outside factors done campusZone (by simp [campus]) 4 (by decide)
  case town =>
    obtain ⟨typical, other, pupils, typical_eq, other_eq, -, own⟩ :=
      account.university factors done townZone (by simp [campus])
    obtain rfl : typical = .zero := Except.ok.inj (typical_eq.symm.trans town)
    obtain rfl : other = -.zero := Except.ok.inj (other_eq.symm.trans towns)
    exact (own 6 (by decide)).trans (congrArg Except.ok (if_pos (by decide +kernel)))
  case unused => exact account.otherRow factors done 2 (by decide +kernel) (by decide +kernel) 0 (by decide)

end Setup

end Accessibility
