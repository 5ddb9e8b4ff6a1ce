import Accessibility.Proofs.Evaluation.SizeTerms

/-! General size terms, one value of each zone for each segment. They come to a table exactly if the evaluator
has as many alternatives as there are segments and each zone is evaluated to as many weights; the row of a zone
is then what the zone was evaluated to (`sizeTerms_account`). All zones are evaluated before a value is looked
at, so the lowest zone whose evaluation fails is reported even where a zone below it has a value that is no
weight. -/
namespace Accessibility.Setup

variable {σ : Type} {serve : σ → (request : CacheRequest) → request.Answer × σ} {zones : ZoneSystem}
  {names : List String} {evaluator : Evaluator} {context : Context} {state : σ}
  {evaluations : List (Evaluated σ)}

/-- General size terms have a value for each segment. -/
def everySegment (names : List String) (_ : UInt32) : List Nat := List.range names.length

theorem places_general (names : List String) (ids : List UInt32) :
    (general names).Places ids (everySegment names) where
  length _ _ := List.length_range
  distinct _ _ := List.nodup_range
  within _ _ cell member := List.mem_range.mp member
  store := by
    intro id _ table values wide
    have wide : values.length = names.length := wide
    have pairs : (values.mapIdx fun segment value => (segment, value)) = (everySegment names id).zip values :=
      List.ext_getElem (by simp [everySegment, wide]) fun segment _ _ => by simp [everySegment]
    show storeAll id table (values.mapIdx fun segment value => (segment, value)) = _
    rw [pairs]

/-- What general size terms come to, from the evaluations of the zones in ascending order. -/
structure GeneralAccount (names : List String) (zones : ZoneSystem) (evaluator : Evaluator)
    (evaluations : List (Evaluated σ)) (outcome : Outcome Noted) : Prop where
  turns : evaluations.map Evaluated.zone = zones.zoneIds.toList ∧ zones.zoneIds.toList.Pairwise (· < ·)
  table : (∃ noted, outcome = .ok noted) ↔ evaluator.width = names.length ∧
    ∀ evaluated ∈ evaluations, ∃ values, evaluated.Gives names.length values ∧
      ∀ value ∈ values, value.IsWeight
  bounds : ∀ noted, outcome = .ok noted →
    noted.table.segmentNames = names ∧ noted.table.maxZone = zones.maxZone
  row : ∀ noted, outcome = .ok noted → ∀ evaluated ∈ evaluations, ∀ values,
    evaluated.outcome = .ok values → noted.table.row evaluated.zone = .ok values
  otherRow : ∀ noted, outcome = .ok noted → ∀ id ∉ zones.zoneIds,
    noted.table.row id = .ok (if id ≤ zones.maxZone then List.replicate names.length .zero else [])
  flag : ∀ noted, outcome = .ok noted → ∀ id, noted.table.hasSizeTerm id = true ↔
    ∃ evaluated ∈ evaluations, evaluated.zone = id ∧
      ∃ values, evaluated.outcome = .ok values ∧ ∃ value ∈ values, value.isPositive = true
  lowest : evaluator.width = names.length → ∀ evaluated ∈ evaluations, ∀ fault,
    evaluated.Fails names.length fault →
    (∀ below ∈ evaluations, below.zone < evaluated.zone → ∃ values, below.Gives names.length values) →
    outcome = .error fault
  fault : ∀ fault, outcome = .error fault ↔
    (general names).Ends (everySegment names) evaluator evaluations fault

theorem generalAccount (ascending : ZoneSystem.Ascending zones.zones.toList) (names : List String)
    (evaluator : Evaluator) (context : Context)
    (turns : evaluator.inTurn serve context zones.zoneIds.toList state = evaluations) :
    GeneralAccount names zones evaluator evaluations
      ((tabulate (general names) zones evaluator context).runOn serve state).1 := by
  have places := places_general names zones.zoneIds.toList
  have zoneIds := map_zone_of_turns turns
  have climbs := ZoneSystem.pairwise_zoneIds ascending
  refine ⟨⟨zoneIds, climbs⟩, exists_tabulate_iff places ascending turns,
    fun noted done => (holds_of_tabulate places ascending turns done).1, ?_,
    fun noted done id other => (row_of_tabulate places ascending turns done other).1, ?_, ?_,
    fun fault => tabulate_eq_error_iff places ascending turns⟩
  · intro noted done evaluated there values came
    obtain ⟨⟨segmentNames, maxZone⟩, gives, holds⟩ := holds_of_tabulate places ascending turns done
    obtain rfl := Evaluated.values_eq came
    have wide : evaluated.values.length = names.length := (gives evaluated there).2
    have within : evaluated.zone ≤ noted.table.maxZone :=
      maxZone ▸ bounded_of_ascending ascending _ (zone_mem_of_turns turns evaluated there)
    refine holds.flagged.row_of_get within (wide.trans (congrArg List.length segmentNames.symm))
      fun segment value given => ?_
    have inside : segment < names.length := by
      rw [← wide]
      exact (List.getElem?_eq_some_iff.mp given).1
    exact holds.placed evaluated there segment segment value (List.getElem?_range inside) given
  · intro noted done id
    obtain ⟨-, gives, holds⟩ := holds_of_tabulate places ascending turns done
    rw [holds.flags]
    refine exists_congr fun evaluated => and_congr_right fun there => and_congr_right fun _ => ?_
    constructor
    · rintro ⟨value, given, positive⟩
      exact ⟨_, (gives evaluated there).1, value, given, positive⟩
    · rintro ⟨values, came, value, given, positive⟩
      obtain rfl := Evaluated.values_eq came
      exact ⟨value, given, positive⟩
  · intro fits evaluated there fault fails before
    obtain ⟨front, behind, split⟩ := List.mem_iff_append.mp there
    have ascends : (evaluations.map Evaluated.zone).Pairwise (· < ·) := zoneIds ▸ climbs
    rw [split, List.map_append, List.pairwise_append] at ascends
    refine (tabulate_eq_error_iff places ascending turns).mpr
      (.evaluation fits split (fun earlier member => ?_) fails)
    have below := ascends.2.2 _ (List.mem_map_of_mem member) _ List.mem_cons_self
    exact before earlier (split ▸ List.mem_append_left _ member) below

/-- The account of general size terms for zones that ascend, as those of every system that is built from records
do. It is the same without a cache and over one, whoever else uses it. -/
theorem sizeTerms_account (ascending : ZoneSystem.Ascending zones.zones.toList) (names : List String)
    (evaluator : Evaluator) (context : Context) :
    GeneralAccount names zones evaluator
        (zones.zoneIds.toList.map fun id => ⟨id, (evaluator.evaluate id context).runAlone, ()⟩)
        (sizeTerms zones names evaluator context) ∧
      ∀ {σ : Type} (serve : σ → (request : CacheRequest) → request.Answer × σ) (state : σ),
        GeneralAccount names zones evaluator (evaluator.inTurn serve context zones.zoneIds.toList state)
          ((tabulate (general names) zones evaluator context).runOn serve state).1 := by
  refine ⟨?_, fun serve state => generalAccount ascending names evaluator context rfl⟩
  have account := generalAccount ascending names evaluator context
    (Evaluator.inTurn_alone evaluator context zones.zoneIds.toList ())
  rwa [Evaluation.runOn_alone] at account

/-- Two zones, with ids below and between them that no zone has. -/
def sparse : ZoneSystem := ⟨[], #[⟨2, .zero, .zero, ⟨4, 20⟩, []⟩, ⟨5, .zero, .zero, ⟨0, 21⟩, []⟩]⟩

/-- Jobs in zone 2 only, and nothing in zone 5. -/
def uneven : Evaluator :=
  .ofFunction ["jobs", "pupils"] fun zone _ => .ok [if zone = 2 then .one else .zero, .zero]

/-- A value below zero in zone 2, and a value too few in zone 5. -/
def flawed : Evaluator :=
  .ofFunction ["jobs", "pupils"] fun zone _ =>
    .ok (if zone = 2 then [⟨0xBFF0000000000000⟩, .zero] else [.one])

/-- The values of two zones in their rows, and a zone with too few values that is reported before the bad one
of a zone below it. -/
theorem sizeTerms_account_sparse :
    ZoneSystem.Ascending sparse.zones.toList ∧
      (∃ noted, sizeTerms sparse ["jobs", "pupils"] uneven {} = .ok noted ∧
        noted.table.row 2 = .ok [.one, .zero] ∧ noted.table.row 3 = .ok [.zero, .zero] ∧
          noted.table.hasSizeTerm 2 = true ∧ noted.table.hasSizeTerm 5 ≠ true) ∧
        ∃ text, sizeTerms sparse ["jobs", "pupils"] flawed {} = .error (.computation 5 text) := by
  have ascending : ZoneSystem.Ascending sparse.zones.toList := by
    simp [ZoneSystem.Ascending, sparse]
  have account := (sizeTerms_account ascending ["jobs", "pupils"] uneven {}).1
  have account' := (sizeTerms_account ascending ["jobs", "pupils"] flawed {}).1
  have ids : sparse.zoneIds.toList = [2, 5] := by simp [ZoneSystem.zoneIds, sparse]
  rw [ids] at account account'
  have weights (id : UInt32) : ∀ value ∈ [if id = 2 then Double.one else .zero, .zero], value.IsWeight := by
    have one : Double.one.IsWeight := by decide
    have zero : Double.zero.IsWeight := by decide
    split <;> simp [one, zero]
  obtain ⟨noted, done⟩ := account.table.mpr ⟨rfl, List.forall_mem_map.mpr fun id _ => ⟨_, ⟨rfl, rfl⟩, weights id⟩⟩
  refine ⟨ascending, ⟨noted, done, account.row noted done _ List.mem_cons_self _ rfl,
    account.otherRow noted done 3 (by simp [ZoneSystem.zoneIds, sparse]), ?_, ?_⟩, ?_⟩
  · exact (account.flag noted done 2).mpr ⟨_, List.mem_cons_self, rfl, _, rfl, .one, List.mem_cons_self, by decide⟩
  · rw [Ne, account.flag noted done 5]
    rintro ⟨evaluated, there, zone, values, came, value, given, positive⟩
    obtain rfl | there := List.mem_cons.mp there
    · exact absurd zone (by decide)
    · obtain rfl := List.mem_singleton.mp there
      obtain rfl : [.zero, .zero] = values := Except.ok.inj came
      obtain rfl : value = .zero := by simpa using given
      exact absurd positive (by decide)
  · refine ⟨_, account'.lowest rfl ⟨5, _, ()⟩ (List.mem_cons_of_mem _ List.mem_cons_self) _
      (.wrongWidth rfl (by decide)) fun below there lower => ?_⟩
    obtain rfl | there := List.mem_cons.mp there
    · exact ⟨_, rfl, rfl⟩
    · obtain rfl := List.mem_singleton.mp there
      exact absurd lower (UInt32.lt_irrefl 5)

end Accessibility.Setup
