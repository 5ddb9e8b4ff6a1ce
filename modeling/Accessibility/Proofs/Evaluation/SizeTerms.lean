import Accessibility.Proofs.Evaluation.Setup
import Accessibility.Proofs.Packet.Sequence
import Accessibility.Proofs.SizeTerm.Rows
import Accessibility.Proofs.Zone.System

/-! Size terms of a kind, from the evaluations of the zones to the table. The zones are evaluated in turn, and
only when all of them have come to values are these stored, each in the cell that the kind has for it
(`Kind.Places`). So the first zone whose evaluation fails is reported, and a value that is no weight only if there
is none (`tabulate_eq_error_iff`). No two values are for one cell, and a table that comes of it holds them all and
nothing else (`holds_of_tabulate`). -/
namespace Accessibility

variable {σ : Type} {serve : σ → (request : CacheRequest) → request.Answer × σ}

namespace Evaluated

variable {width : Nat} {evaluated : Evaluated σ} {fault : Fault}

/-- An evaluation that comes to values, as many as are expected. -/
def Gives (width : Nat) (evaluated : Evaluated σ) (values : List Double) : Prop :=
  evaluated.outcome = .ok values ∧ values.length = width

/-- What is said of an evaluation that does not: its own fault, or what it comes to instead. -/
inductive Fails (width : Nat) (evaluated : Evaluated σ) : Fault → Prop where
  | fault {fault : Fault} : evaluated.outcome = .error fault → Fails width evaluated fault
  | wrongWidth {values : List Double} : evaluated.outcome = .ok values → values.length ≠ width →
    Fails width evaluated
      (.computation evaluated.zone s!"evaluator returned {values.length} values, expected {width}")

/-- The values of an evaluation, none if it failed. -/
def values (evaluated : Evaluated σ) : List Double := evaluated.outcome.toOption.getD []

theorem values_eq {own : List Double} (came : evaluated.outcome = .ok own) : evaluated.values = own := by
  rw [values, came]
  rfl

/-- The zone with its values, if they are as many as are expected. -/
def checked (width : Nat) (evaluated : Evaluated σ) : Outcome (UInt32 × List Double) := do
  let values ← evaluated.outcome
  let values ← Setup.checkWidth width evaluated.zone values
  return (evaluated.zone, values)

theorem checked_eq_ok_iff {row : UInt32 × List Double} : evaluated.checked width = .ok row ↔
    evaluated.Gives width evaluated.values ∧ row = (evaluated.zone, evaluated.values) := by
  cases came : evaluated.outcome with
  | error fault => simp [checked, Gives, came, bind_eq_ok_iff]
  | ok own =>
    simp only [checked, Gives, came, values_eq came, bind_eq_ok_iff, Setup.checkWidth, Except.ok.injEq,
      exists_eq_left', true_and]
    split
    next fits => simp [fits, pure, Except.pure, eq_comm]
    next other => simp [other]

theorem checked_eq_error_iff : evaluated.checked width = .error fault ↔ evaluated.Fails width fault := by
  constructor
  · intro failed
    obtain failed | ⟨values, came, failed⟩ := bind_eq_error_iff.mp failed
    · exact .fault failed
    · obtain failed | ⟨_, -, ⟨⟩⟩ := bind_eq_error_iff.mp failed
      unfold Setup.checkWidth at failed
      split at failed
      next => cases failed
      next other =>
        cases failed
        exact .wrongWidth came other
  · rintro (failed | ⟨came, other⟩)
    · exact bind_eq_error_iff.mpr (.inl failed)
    · refine bind_eq_error_iff.mpr (.inr ⟨_, came, bind_eq_error_iff.mpr (.inl ?_)⟩)
      exact if_neg other

/-- The weights that a zone's values are, in the cells of its row that they are for. -/
def weights (cells : UInt32 → List Nat) (evaluated : Evaluated σ) : List SizeTermTable.Call :=
  ((cells evaluated.zone).zip evaluated.values).map fun cell => ⟨evaluated.zone, cell.1, cell.2⟩

end Evaluated

/-- Without a cache no evaluation depends on those before it. -/
theorem Evaluator.inTurn_alone (evaluator : Evaluator) (context : Context) (ids : List UInt32) (state : Unit) :
    evaluator.inTurn Evaluation.alone context ids state =
      ids.map fun id => ⟨id, (evaluator.evaluate id context).runAlone, state⟩ := by
  induction ids with
  | nil => rfl
  | cons id rest ih => rw [Packet.inTurn_cons, Evaluation.runOn_alone, ih, List.map_cons]

namespace Setup

open SizeTermTable (Call filled)
open Evaluation (runOn_bind)

variable {kind : Kind} {cells : UInt32 → List Nat} {zones : ZoneSystem} {evaluator : Evaluator}
  {context : Context} {state : σ} {ids : List UInt32} {evaluations : List (Evaluated σ)} {fault : Fault}

/-- The zones are evaluated in turn, and the first that fails is reported. -/
theorem runOn_evaluateZones (width : Nat) (ids : List UInt32) (state : σ) :
    ((evaluateZones evaluator context width ids).runOn serve state).1 =
      (evaluator.inTurn serve context ids state).mapM (Evaluated.checked width) := by
  -- The zones behind one begin from the state that it leaves.
  induction ids generalizing state with
  | nil => rfl
  | cons zone rest ih =>
    rw [Packet.inTurn_cons, List.mapM_cons]
    show ((Evaluation.bind _ _).runOn serve state).1 = _
    rw [runOn_bind]
    cases (evaluator.evaluate zone context).runOn serve state with
    | mk outcome after =>
      cases outcome with
      | error fault => rfl
      | ok values =>
        show ((Evaluation.bind (.ofOutcome (checkWidth width zone values)) _).runOn serve after).1 =
          (checkWidth width zone values >>= _) >>= _
        rw [runOn_bind]
        cases checkWidth width zone values with
        | error fault => rfl
        | ok values =>
          show ((Evaluation.bind (evaluateZones evaluator context width rest) _).runOn serve after).1 = _
          rw [runOn_bind, ← ih after]
          cases (evaluateZones evaluator context width rest).runOn serve after with
          | mk others last => cases others <;> rfl

/-- Where a kind stores the values of zones: for each zone in as many different cells of its row as it has
values. -/
structure Kind.Places (kind : Kind) (ids : List UInt32) (cells : UInt32 → List Nat) : Prop where
  length : ∀ id ∈ ids, (cells id).length = kind.alternatives
  distinct : ∀ id ∈ ids, (cells id).Nodup
  within : ∀ id ∈ ids, ∀ cell ∈ cells id, cell < kind.segmentNames.length
  store : ∀ id ∈ ids, ∀ table values, values.length = kind.alternatives →
    kind.store table (id, values) = storeAll id table ((cells id).zip values)

theorem storeAll_eq_setAll (zone : UInt32) (table : SizeTermTable) (weights : List (Nat × Double)) :
    storeAll zone table weights = table.setAll (weights.map fun cell => ⟨zone, cell.1, cell.2⟩) := by
  rw [SizeTermTable.setAll, List.foldlM_map]
  rfl

/-- Zone after zone stores the weights one after the other. -/
theorem foldlM_store (places : kind.Places ids cells) (table : SizeTermTable)
    (given : ∀ evaluated ∈ evaluations,
      evaluated.zone ∈ ids ∧ evaluated.Gives kind.alternatives evaluated.values) :
    (evaluations.map fun evaluated => (evaluated.zone, evaluated.values)).foldlM kind.store table =
      table.setAll (evaluations.flatMap (Evaluated.weights cells)) := by
  induction evaluations generalizing table with
  | nil => rfl
  | cons evaluated rest ih =>
    obtain ⟨⟨member, gives⟩, others⟩ := List.forall_mem_cons.mp given
    rw [List.map_cons, List.foldlM_cons, places.store _ member table _ gives.2, storeAll_eq_setAll,
      List.flatMap_cons, SizeTermTable.setAll_append]
    exact congrArg _ (funext fun after => ih after others)

theorem mem_weights {evaluated : Evaluated σ} {place cell : Nat} {value : Double}
    (here : (cells evaluated.zone)[place]? = some cell) (given : evaluated.values[place]? = some value) :
    ⟨evaluated.zone, cell, value⟩ ∈ evaluated.weights cells := by
  refine List.mem_map.mpr ⟨(cell, value), List.mem_iff_getElem?.mpr ⟨place, ?_⟩, rfl⟩
  rw [List.getElem?_zip_eq_some]
  exact ⟨here, given⟩

/-- Each of an evaluation's values is one of its weights. -/
theorem exists_mem_weights (places : kind.Places ids cells) {evaluated : Evaluated σ}
    (member : evaluated.zone ∈ ids) (wide : evaluated.values.length = kind.alternatives) {value : Double}
    (given : value ∈ evaluated.values) : ∃ call ∈ evaluated.weights cells, call.value = value := by
  obtain ⟨place, there⟩ := List.mem_iff_getElem?.mp given
  have inside : place < (cells evaluated.zone).length := by
    rw [places.length _ member, ← wide]
    exact (List.getElem?_eq_some_iff.mp there).1
  exact ⟨_, mem_weights (List.getElem?_eq_getElem inside) there, rfl⟩

/-! ## Storing -/

section Storing

variable {maxZone : UInt32} (places : kind.Places ids cells) (bounded : ∀ id ∈ ids, id ≤ maxZone)

include places bounded

/-- The weights of an evaluation are its values, for cells inside the table. -/
theorem inside_of_mem_weights {evaluated : Evaluated σ} (member : evaluated.zone ∈ ids) {call : Call}
    (given : call ∈ evaluated.weights cells) :
    (call.zone ≤ maxZone ∧ call.segment < kind.segmentNames.length) ∧
      call.zone = evaluated.zone ∧ call.segment ∈ cells evaluated.zone ∧ call.value ∈ evaluated.values := by
  obtain ⟨⟨cell, value⟩, pair, rfl⟩ := List.mem_map.mp given
  obtain ⟨there, given⟩ := List.of_mem_zip pair
  exact ⟨⟨bounded _ member, places.within _ member cell there⟩, rfl, there, given⟩

theorem inside_of_mem_flatMap (members : ∀ evaluated ∈ evaluations, evaluated.zone ∈ ids) :
    ∀ call ∈ evaluations.flatMap (Evaluated.weights cells),
      call.zone ≤ maxZone ∧ call.segment < kind.segmentNames.length := by
  intro call weighed
  obtain ⟨evaluated, there, own⟩ := List.mem_flatMap.mp weighed
  exact (inside_of_mem_weights places bounded (members evaluated there) own).1

variable (given : ∀ evaluated ∈ evaluations,
  evaluated.zone ∈ ids ∧ evaluated.Gives kind.alternatives evaluated.values)

include given

/-- A table is made of the values of all zones if each of them is a weight. -/
theorem foldlM_store_eq_ok_iff {table : SizeTermTable} :
    (evaluations.map fun evaluated => (evaluated.zone, evaluated.values)).foldlM kind.store
        (.zeros kind.segmentNames maxZone) = .ok table ↔
      (∀ evaluated ∈ evaluations, ∀ value ∈ evaluated.values, value.IsWeight) ∧
        table = filled kind.segmentNames maxZone (evaluations.flatMap (Evaluated.weights cells)) := by
  have inside := inside_of_mem_flatMap places bounded fun evaluated there => (given evaluated there).1
  rw [foldlM_store places _ given, SizeTermTable.setAll_eq_ok_iff]
  refine and_congr_left fun _ => ?_
  constructor
  · intro fits evaluated there value own
    obtain ⟨member, -, wide⟩ := given evaluated there
    obtain ⟨call, weighed, rfl⟩ := exists_mem_weights places member wide own
    have fit := fits call (List.mem_flatMap.mpr ⟨evaluated, there, weighed⟩)
    exact ⟨fit.finite, fit.natural⟩
  · intro sound call weighed
    obtain ⟨evaluated, there, own⟩ := List.mem_flatMap.mp weighed
    obtain ⟨within, segment⟩ := inside call weighed
    refine (Call.fits_iff within segment).mpr (sound evaluated there call.value ?_)
    exact (inside_of_mem_weights places bounded (given evaluated there).1 own).2.2.2

/-- Otherwise the first value that is no weight is reported. -/
theorem foldlM_store_eq_error_iff :
    (evaluations.map fun evaluated => (evaluated.zone, evaluated.values)).foldlM kind.store
        (.zeros kind.segmentNames maxZone) = .error fault ↔
      ∃ front call behind, evaluations.flatMap (Evaluated.weights cells) = front ++ call :: behind ∧
        (∀ earlier ∈ front, earlier.value.IsWeight) ∧ ¬ call.value.IsWeight ∧
          ∃ name, kind.segmentNames[call.segment]? = some name ∧
            fault = .computation call.zone s!"size term for segment '{name}' is {call.value.text}" := by
  have inside := inside_of_mem_flatMap places bounded fun evaluated there => (given evaluated there).1
  rw [foldlM_store places _ given, SizeTermTable.setAll_eq_error_iff]
  refine exists_congr fun front => exists_congr fun call => exists_congr fun behind =>
    and_congr_right fun split => ?_
  rw [split] at inside
  -- All of the cells are inside the table, so what keeps a value out of its cell is the value.
  obtain ⟨within, segment⟩ := inside call (List.mem_append_right front List.mem_cons_self)
  refine and_congr (forall₂_congr fun earlier member => ?_) (Call.refused_iff within segment)
  obtain ⟨within, segment⟩ := inside earlier (List.mem_append_left _ member)
  exact Call.fits_iff within segment

/-- No two weights of zones that are evaluated once are for the same cell. -/
theorem nodup_cells (distinct : (evaluations.map Evaluated.zone).Nodup) :
    ((evaluations.flatMap (Evaluated.weights cells)).map Call.cell).Nodup := by
  rw [List.map_flatMap, List.nodup_flatMap]
  constructor
  · intro evaluated there
    obtain ⟨member, -, wide⟩ := given evaluated there
    have whole : (cells evaluated.zone).length ≤ evaluated.values.length := by
      rw [places.length _ member, wide]
    have pairs : (evaluated.weights cells).map Call.cell = (cells evaluated.zone).map (Prod.mk evaluated.zone) := by
      conv_rhs => rw [← List.map_fst_zip whole]
      simp only [Evaluated.weights, List.map_map]
      rfl
    rw [pairs]
    exact (places.distinct _ member).map fun cell cell' same => (Prod.ext_iff.mp same).2
  · refine (List.pairwise_map.mp distinct).imp_of_mem fun {first second} there there' apart => ?_
    intro cell mine other
    obtain ⟨call, weighed, rfl⟩ := List.mem_map.mp mine
    obtain ⟨call', weighed', same⟩ := List.mem_map.mp other
    have zone := (inside_of_mem_weights places bounded (given first there).1 weighed).2.1
    have zone' := (inside_of_mem_weights places bounded (given second there').1 weighed').2.1
    exact apart (zone.symm.trans ((Prod.ext_iff.mp same).1.symm.trans zone'))

/-- A table that holds what the zones were evaluated to: each value in the cell that it is for, zeros in all
other cells, and flags for the zones with a value above zero. -/
structure Holds (cells : UInt32 → List Nat) (evaluations : List (Evaluated σ)) (table : SizeTermTable) : Prop where
  flagged : table.Flagged
  placed : ∀ evaluated ∈ evaluations, ∀ (place cell : Nat) (value : Double),
    (cells evaluated.zone)[place]? = some cell →
    evaluated.values[place]? = some value → table.get evaluated.zone cell = .ok value
  elsewhere : ∀ zone segment, (∀ evaluated ∈ evaluations, evaluated.zone = zone → segment ∉ cells zone) →
    table.get zone segment = .ok .zero
  flags : ∀ zone, table.hasSizeTerm zone = true ↔
    ∃ evaluated ∈ evaluations, evaluated.zone = zone ∧ ∃ value ∈ evaluated.values, value.isPositive = true

theorem holds_filled (distinct : (evaluations.map Evaluated.zone).Nodup)
    (sound : ∀ evaluated ∈ evaluations, ∀ value ∈ evaluated.values, value.IsWeight) :
    Holds cells evaluations
      (filled kind.segmentNames maxZone (evaluations.flatMap (Evaluated.weights cells))) where
  flagged := SizeTermTable.flagged_filled ..
  placed := by
    intro evaluated there place cell value here own
    have weighed := mem_weights here own
    obtain ⟨⟨within, inside⟩, -⟩ := inside_of_mem_weights places bounded (given evaluated there).1 weighed
    exact SizeTermTable.get_filled_of_mem (nodup_cells places bounded given distinct)
      (List.mem_flatMap.mpr ⟨evaluated, there, weighed⟩)
      ((Call.fits_iff within inside).mpr (sound evaluated there value (List.mem_of_getElem? own)))
  elsewhere := by
    intro zone segment none
    refine SizeTermTable.get_filled_of_forall fun call weighed same => ?_
    obtain ⟨evaluated, there, own⟩ := List.mem_flatMap.mp weighed
    obtain ⟨-, zone', segment', -⟩ := inside_of_mem_weights places bounded (given evaluated there).1 own
    rw [← zone'] at segment'
    obtain ⟨rfl, rfl⟩ := Prod.ext_iff.mp same
    exact none evaluated there zone'.symm segment'
  flags := by
    intro zone
    rw [SizeTermTable.hasSizeTerm_filled]
    constructor
    · rintro ⟨call, weighed, -, rfl, positive⟩
      obtain ⟨evaluated, there, own⟩ := List.mem_flatMap.mp weighed
      obtain ⟨-, zone, -, value⟩ := inside_of_mem_weights places bounded (given evaluated there).1 own
      exact ⟨evaluated, there, zone.symm, call.value, value, positive⟩
    · rintro ⟨evaluated, there, rfl, value, own, positive⟩
      obtain ⟨member, -, wide⟩ := given evaluated there
      obtain ⟨call, weighed, rfl⟩ := exists_mem_weights places member wide own
      obtain ⟨⟨within, inside⟩, zone, -⟩ := inside_of_mem_weights places bounded member weighed
      exact ⟨call, List.mem_flatMap.mpr ⟨evaluated, there, weighed⟩,
        (Call.fits_iff within inside).mpr (sound evaluated there call.value own), zone, positive⟩

end Storing

/-! ## The whole computation -/

/-- What ends the computation of size terms, the first of these: a wrong number of alternatives, the first
zone whose evaluation fails, or the first value that is no weight, once all zones have been evaluated. -/
inductive Kind.Ends (kind : Kind) (cells : UInt32 → List Nat) (evaluator : Evaluator)
    (evaluations : List (Evaluated σ)) : Fault → Prop where
  | alternatives : evaluator.width ≠ kind.alternatives →
    Ends kind cells evaluator evaluations (.configuration
      s!"{kind.evaluator} evaluator has {evaluator.width} alternatives, expected {kind.alternatives}")
  | evaluation {front behind : List (Evaluated σ)} {evaluated : Evaluated σ} {fault : Fault} :
    evaluator.width = kind.alternatives → evaluations = front ++ evaluated :: behind →
    (∀ earlier ∈ front, ∃ values, earlier.Gives kind.alternatives values) →
    evaluated.Fails kind.alternatives fault → Ends kind cells evaluator evaluations fault
  | weight {front behind : List Call} {call : Call} {name : String} :
    evaluator.width = kind.alternatives →
    (∀ evaluated ∈ evaluations, ∃ values, evaluated.Gives kind.alternatives values) →
    evaluations.flatMap (Evaluated.weights cells) = front ++ call :: behind →
    (∀ earlier ∈ front, earlier.value.IsWeight) → ¬ call.value.IsWeight →
    kind.segmentNames[call.segment]? = some name →
    Ends kind cells evaluator evaluations
      (.computation call.zone s!"size term for segment '{name}' is {call.value.text}")

theorem checkAlternatives_eq_ok_iff {expected : Nat} {what : String} {done : Unit} :
    checkAlternatives evaluator expected what = .ok done ↔ evaluator.width = expected := by
  unfold checkAlternatives
  split
  next fits => exact iff_of_true rfl fits
  next other => exact iff_of_false nofun other

theorem checkAlternatives_eq_error_iff {expected : Nat} {what : String} :
    checkAlternatives evaluator expected what = .error fault ↔ evaluator.width ≠ expected ∧
      fault = .configuration s!"{what} evaluator has {evaluator.width} alternatives, expected {expected}" := by
  unfold checkAlternatives
  split
  next fits => exact ⟨nofun, fun refused => absurd fits refused.1⟩
  next other => exact ⟨fun failed => ⟨other, (Except.error.inj failed).symm⟩, fun ⟨_, same⟩ => same ▸ rfl⟩

/-- All zones are evaluated to rows exactly if each comes to as many values as are expected. -/
theorem mapM_checked_eq_ok_iff {width : Nat} {rows : List (UInt32 × List Double)} :
    evaluations.mapM (Evaluated.checked width) = .ok rows ↔
      (∀ evaluated ∈ evaluations, evaluated.Gives width evaluated.values) ∧
        rows = evaluations.map fun evaluated => (evaluated.zone, evaluated.values) := by
  rw [mapM_eq_ok_iff fun evaluated row came => (Evaluated.checked_eq_ok_iff.mp came).2]
  simp only [Evaluated.checked_eq_ok_iff, and_true]

section Tabulate

variable (places : kind.Places zones.zoneIds.toList cells) (ascending : ZoneSystem.Ascending zones.zones.toList)
  (turns : evaluator.inTurn serve context zones.zoneIds.toList state = evaluations)

include ascending in
theorem bounded_of_ascending (id : UInt32) (member : id ∈ zones.zoneIds.toList) : id ≤ zones.maxZone :=
  ZoneSystem.id_le_maxZone ascending (Array.mem_toList_iff.mp member)

include turns in
theorem map_zone_of_turns : evaluations.map Evaluated.zone = zones.zoneIds.toList :=
  turns ▸ Packet.map_zone_inTurn ..

include turns in
theorem zone_mem_of_turns (evaluated : Evaluated σ) (member : evaluated ∈ evaluations) :
    evaluated.zone ∈ zones.zoneIds.toList :=
  map_zone_of_turns turns ▸ List.mem_map_of_mem member

include ascending turns in
theorem nodup_zone_of_turns : (evaluations.map Evaluated.zone).Nodup := by
  rw [map_zone_of_turns turns]
  exact ZoneSystem.nodup_zoneIds ascending

include places ascending turns

/-- When size terms come to a table, and to which. -/
theorem tabulate_eq_ok_iff {noted : Noted} :
    ((tabulate kind zones evaluator context).runOn serve state).1 = .ok noted ↔
      (evaluator.width = kind.alternatives ∧ ∀ evaluated ∈ evaluations,
        evaluated.Gives kind.alternatives evaluated.values ∧ ∀ value ∈ evaluated.values, value.IsWeight) ∧
        noted = note (filled kind.segmentNames zones.maxZone (evaluations.flatMap (Evaluated.weights cells)))
          zones kind.name := by
  have bounded := bounded_of_ascending ascending
  have members := zone_mem_of_turns turns
  rw [runOn_tabulate, runOn_evaluateZones, turns]
  simp only [bind_eq_ok_iff, checkAlternatives_eq_ok_iff, mapM_checked_eq_ok_iff]
  constructor
  · rintro ⟨-, fits, _, ⟨gives, rfl⟩, table, stored, ⟨⟩⟩
    obtain ⟨sound, rfl⟩ := (foldlM_store_eq_ok_iff places bounded
      fun evaluated there => ⟨members evaluated there, gives evaluated there⟩).mp stored
    exact ⟨⟨fits, fun evaluated there => ⟨gives evaluated there, sound evaluated there⟩⟩, rfl⟩
  · rintro ⟨⟨fits, each⟩, rfl⟩
    have stored := (foldlM_store_eq_ok_iff places bounded
      fun evaluated there => ⟨members evaluated there, (each evaluated there).1⟩).mpr
      ⟨fun evaluated there => (each evaluated there).2, rfl⟩
    exact ⟨(), fits, _, ⟨fun evaluated there => (each evaluated there).1, rfl⟩, _, stored, rfl⟩

theorem exists_tabulate_iff :
    (∃ noted, ((tabulate kind zones evaluator context).runOn serve state).1 = .ok noted) ↔
      evaluator.width = kind.alternatives ∧ ∀ evaluated ∈ evaluations,
        ∃ values, evaluated.Gives kind.alternatives values ∧ ∀ value ∈ values, value.IsWeight := by
  simp only [tabulate_eq_ok_iff places ascending turns, exists_eq_right]
  refine and_congr_right fun _ => forall₂_congr fun evaluated _ => ⟨fun given => ⟨_, given⟩, ?_⟩
  rintro ⟨values, gives, sound⟩
  rw [Evaluated.values_eq gives.1]
  exact ⟨gives, sound⟩

/-- When size terms come to a fault, and to which. -/
theorem tabulate_eq_error_iff :
    ((tabulate kind zones evaluator context).runOn serve state).1 = .error fault ↔
      kind.Ends cells evaluator evaluations fault := by
  have bounded := bounded_of_ascending ascending
  have members := zone_mem_of_turns turns
  rw [runOn_tabulate, runOn_evaluateZones, turns, bind_eq_error_iff, checkAlternatives_eq_error_iff]
  simp only [bind_eq_error_iff, checkAlternatives_eq_ok_iff, mapM_checked_eq_ok_iff]
  constructor
  · rintro (⟨other, rfl⟩ | ⟨-, fits, failed | ⟨_, ⟨gives, rfl⟩, failed | ⟨_, -, ⟨⟩⟩⟩⟩)
    · exact .alternatives other
    · obtain ⟨front, evaluated, behind, split, before, failed⟩ := mapM_eq_error_iff.mp failed
      refine .evaluation fits split (fun earlier there => ?_) (Evaluated.checked_eq_error_iff.mp failed)
      obtain ⟨row, came⟩ := before earlier there
      exact ⟨_, (Evaluated.checked_eq_ok_iff.mp came).1⟩
    · obtain ⟨front, call, behind, split, before, bad, name, named, rfl⟩ := (foldlM_store_eq_error_iff places bounded
        fun evaluated there => ⟨members evaluated there, gives evaluated there⟩).mp failed
      exact .weight fits (fun evaluated there => ⟨_, gives evaluated there⟩) split before bad named
  · intro ends
    cases ends with
    | alternatives other => exact .inl ⟨other, rfl⟩
    | @evaluation front behind evaluated _ fits split before fails =>
      refine .inr ⟨(), fits, .inl (mapM_eq_error_iff.mpr
        ⟨front, evaluated, behind, split, fun earlier there => ?_, Evaluated.checked_eq_error_iff.mpr fails⟩)⟩
      obtain ⟨values, gives⟩ := before earlier there
      rw [← Evaluated.values_eq gives.1] at gives
      exact ⟨_, Evaluated.checked_eq_ok_iff.mpr ⟨gives, rfl⟩⟩
    | @weight front behind call name fits each split before bad named =>
      have gives : ∀ evaluated ∈ evaluations, evaluated.Gives kind.alternatives evaluated.values := by
        intro evaluated there
        obtain ⟨values, gives⟩ := each evaluated there
        rwa [Evaluated.values_eq gives.1]
      have failed := (foldlM_store_eq_error_iff places bounded
        fun evaluated there => ⟨members evaluated there, gives evaluated there⟩).mpr
        ⟨front, call, behind, split, before, bad, name, named, rfl⟩
      exact .inr ⟨(), fits, .inr ⟨_, ⟨gives, rfl⟩, .inl failed⟩⟩

/-- Size terms that come to a table hold what the zones were evaluated to. -/
theorem holds_of_tabulate {noted : Noted}
    (done : ((tabulate kind zones evaluator context).runOn serve state).1 = .ok noted) :
    (noted.table.segmentNames = kind.segmentNames ∧ noted.table.maxZone = zones.maxZone) ∧
      (∀ evaluated ∈ evaluations, evaluated.Gives kind.alternatives evaluated.values) ∧
        Holds cells evaluations noted.table := by
  obtain ⟨⟨-, each⟩, rfl⟩ := (tabulate_eq_ok_iff places ascending turns).mp done
  refine ⟨SizeTermTable.bounds_filled .., fun evaluated there => (each evaluated there).1, ?_⟩
  exact holds_filled places (bounded_of_ascending ascending)
    (fun evaluated there => ⟨zone_mem_of_turns turns evaluated there, (each evaluated there).1⟩)
    (nodup_zone_of_turns ascending turns) fun evaluated there => (each evaluated there).2

/-- Ids that no zone has have rows of zeros, and no flag. -/
theorem row_of_tabulate {noted : Noted}
    (done : ((tabulate kind zones evaluator context).runOn serve state).1 = .ok noted) {id : UInt32}
    (other : id ∉ zones.zoneIds) :
    noted.table.row id =
        .ok (if id ≤ zones.maxZone then List.replicate kind.segmentNames.length .zero else []) ∧
      noted.table.hasSizeTerm id = false := by
  obtain ⟨⟨segmentNames, maxZone⟩, -, holds⟩ := holds_of_tabulate places ascending turns done
  have unlisted : ∀ evaluated ∈ evaluations, evaluated.zone ≠ id := by
    rintro evaluated there rfl
    exact other (Array.mem_toList_iff.mp (zone_mem_of_turns turns evaluated there))
  constructor
  · rw [← segmentNames, ← maxZone]
    split
    next within =>
      refine holds.flagged.row_of_get within List.length_replicate fun segment value given => ?_
      rw [List.eq_of_mem_replicate (List.mem_of_getElem? given)]
      exact holds.elsewhere id segment fun evaluated there same => absurd same (unlisted evaluated there)
    next beyond => rw [holds.flagged.row_eq, if_neg beyond]
  · rw [← Bool.not_eq_true, holds.flags]
    rintro ⟨evaluated, there, same, -⟩
    exact unlisted evaluated there same

end Tabulate

end Setup

end Accessibility
