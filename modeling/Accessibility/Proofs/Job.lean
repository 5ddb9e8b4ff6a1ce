import Accessibility.Job
import Accessibility.Proofs.Execution.Failure
import Accessibility.Proofs.Execution.Local
import Accessibility.Proofs.Table.Merge
import Accessibility.Proofs.Zone.System

/-! A job from end to end. Whoever evaluates its packets, in whatever order and of
whatever size they are: the job has a table exactly if every zone has a proper answer,
and it is then the table of the answers (`compute_eq_ok_iff`). -/
namespace Accessibility.Job

variable {evaluator : Evaluator} {inputs : JobInputs} {σ : Type} {executor : Executor σ} {state : σ}

/-- The executors of a job, each in any of the states that it can be in: workers over a
cache that has served nothing but this evaluator on these inputs, and nodes that can all
be reached by inputs that can be sent. -/
inductive Staffed (evaluator : Evaluator) (inputs : JobInputs) :
    {σ : Type} → Executor σ → σ → Prop where
  | workers {threads : Nat} {schedule : List LocalExecutor.Move} {executor : Executor UtilityCache}
      {cache : UtilityCache} : LocalExecutor.create threads evaluator schedule = .ok executor →
    evaluator.Served inputs cache → Staffed evaluator inputs executor cache
  | nodes {nodes : Nat} {unreachable schedule : List Nat} {carrier : Transport (List Nat)}
      {dispatch : Dispatch (List Nat)} :
    Loopback.transport nodes evaluator unreachable schedule = .ok carrier →
    (∀ index < nodes, index ∉ unreachable) → Wire.Sendable inputs →
    Staffed evaluator inputs (DistributedExecutor.create carrier evaluator.width.toUInt64) dispatch

section Submit

variable {packets : List Packet}

/-- An executor has results only if all packets have one, and they are then those of the
packets in some order. -/
theorem Staffed.perm_of_submit_eq_ok (staffed : Staffed evaluator inputs executor state)
    (steady : evaluator.Steady inputs) (valid : inputs.cacheSpec.validate = .ok ())
    (distinct : (packets.map Packet.id).Nodup)
    (small : ∀ packet ∈ packets, ∀ result, packet.outcome evaluator inputs = .ok result →
      4 * result.values.size < 2 ^ 63) {results : List PacketResult}
    (came : (executor.submit packets inputs state).1 = .ok results) :
    (results.map .ok).Perm (packets.map fun packet => packet.outcome evaluator inputs) := by
  cases staffed with
  | @workers threads schedule _ _ created served =>
    rw [LocalExecutor.submit_of_create created] at came
    rw [(LocalExecutor.submit_eq_ok_iff steady served threads schedule results).mp came]
  | nodes created up sendable =>
    refine DistributedExecutor.perm_of_submit_eq_ok created sendable valid steady distinct
      (fun packet member result ended => ?_) came
    have := small packet member result ended
    rw [show UInt64.size = 2 ^ 64 from rfl]
    omega

/-- An executor has results if all packets have a position and a result. -/
theorem Staffed.submit_eq_ok (staffed : Staffed evaluator inputs executor state)
    (steady : evaluator.Steady inputs) (valid : inputs.cacheSpec.validate = .ok ())
    (distinct : (packets.map Packet.id).Nodup) (ordered : ∀ packet ∈ packets, packet.first ≤ packet.last)
    (small : ∀ packet ∈ packets, ∀ result, packet.outcome evaluator inputs = .ok result →
      4 * result.values.size < 2 ^ 63)
    (every : ∀ packet ∈ packets, ∃ result, packet.outcome evaluator inputs = .ok result) :
    ∃ results, (executor.submit packets inputs state).1 = .ok results := by
  cases staffed with
  | @workers threads schedule _ _ created served =>
    obtain ⟨results, came⟩ := exists_map_eq_iff.mpr every
    rw [LocalExecutor.submit_of_create created]
    exact ⟨results, (LocalExecutor.submit_eq_ok_iff steady served threads schedule results).mpr came⟩
  | @nodes nodes unreachable schedule carrier dispatch created up sendable =>
    have whole : ∀ packet ∈ packets, packet.outcome evaluator inputs ≠ .error .outOfBounds := by
      intro packet member broken
      obtain ⟨result, came⟩ := every packet member
      rw [came] at broken
      cases broken
    have deliverable : ∀ packet ∈ packets,
        Wire.Sendable (TaskOutcome.ofResult (packet.outcome evaluator inputs)) := by
      intro packet member
      obtain ⟨result, came⟩ := every packet member
      have := small packet member result came
      rw [came, TaskOutcome.ofResult, Wire.Sendable, Wire.length_encode_completed,
        show UInt64.size = 2 ^ 64 from rfl]
      omega
    obtain ⟨results, came, _⟩ | ⟨packet, member, _, _, fault, failed, _⟩ :=
      DistributedExecutor.submit_cases created sendable valid steady distinct ordered whole deliverable
        up dispatch
    · exact ⟨results, came⟩
    · obtain ⟨result, came⟩ := every packet member
      rw [came] at failed
      cases failed

end Submit

/-- After a job its executor can take up the next. -/
theorem Staffed.submit (staffed : Staffed evaluator inputs executor state)
    (steady : evaluator.Steady inputs) (packets : List Packet) :
    Staffed evaluator inputs executor (executor.submit packets inputs state).2 := by
  cases staffed with
  | @workers threads schedule _ _ created served =>
    refine .workers created ?_
    rw [LocalExecutor.submit_of_create created]
    exact LocalExecutor.submit_served steady served threads schedule
  | nodes created up sendable => exact .nodes created up sendable

/-- The packets of a list are evaluated and their results merged. -/
theorem compute_eq_bind {packetSize : UInt64} {packets : List Packet}
    (cut : Packet.ranges inputs.zones.zoneIds.size.toUInt64 packetSize = .ok packets) (alternatives : Nat)
    (state : σ) :
    (compute executor inputs packetSize alternatives state).1 =
      (executor.submit packets inputs state).1.bind
        (AccessibilityTable.merge inputs.zones.maxZone alternatives inputs.zones.zoneIds) := by
  simp only [compute, cut, bind, StateT.bind]
  cases executor.submit packets inputs state with
  | mk came after => cases came <;> rfl

/-- A job has a table if its list can be cut, its executor has results, and these can be
merged. -/
theorem compute_eq_ok {packetSize : UInt64} {packets : List Packet}
    (cut : Packet.ranges inputs.zones.zoneIds.size.toUInt64 packetSize = .ok packets) (alternatives : Nat)
    (state : σ) (found : AccessibilityTable) :
    (compute executor inputs packetSize alternatives state).1 = .ok found ↔
      ∃ results, (executor.submit packets inputs state).1 = .ok results ∧
        AccessibilityTable.merge inputs.zones.maxZone alternatives inputs.zones.zoneIds results = .ok found := by
  rw [compute_eq_bind cut]
  cases (executor.submit packets inputs state).1 with
  | error fault => simp [Except.bind]
  | ok results => simp [Except.bind]

/-- Every zone of a list that is tiled by packets with results has a proper answer. -/
theorem proper_of_tiles {zones : Array UInt32} {width : Nat} {answers : UInt32 → Outcome (List Double)}
    {start : Nat} {packets : List Packet} (tiles : Packet.Tiles zones.size start packets)
    (every : ∀ packet ∈ packets, ∃ result, packet.answer zones width answers = .ok result) :
    ∀ zone ∈ zones.toList.drop start, Packet.Proper width (answers zone) := by
  induction tiles with
  | done => simp [List.drop_eq_nil_of_le]
  | @packet packet rest ordered within tiles ih =>
    intro zone member
    rw [Packet.drop_first zones ordered] at member
    obtain here | later := List.mem_append.mp member
    · obtain ⟨result, came⟩ := every packet List.mem_cons_self
      obtain ⟨covered, inside, proper, _⟩ := (Packet.answer_eq_ok_iff result).mp came
      obtain ⟨_, rfl⟩ := (Packet.zonesOf_eq_ok_iff covered).mp inside
      exact proper zone here
    · exact ih (fun other there => every other (List.mem_cons_of_mem _ there)) zone later

section Table

variable {packets : List Packet}

/-- Packets that tile the list have results that are small enough if the table is. -/
theorem small_of_tiles (steady : evaluator.Steady inputs)
    (ascending : ZoneSystem.Ascending inputs.zones.zones.toList)
    (holdable : 4 * ((inputs.zones.maxZone.toNat + 1) * evaluator.width) < 2 ^ 63)
    (tiles : Packet.Tiles inputs.zones.zoneIds.size 0 packets) :
    ∀ packet ∈ packets, ∀ result, packet.outcome evaluator inputs = .ok result →
      4 * result.values.size < 2 ^ 63 := by
  intro packet member result came
  rw [Packet.outcome_eq_answer steady] at came
  obtain ⟨_, within⟩ := tiles.inside packet member
  obtain ⟨_, _, size⟩ := Packet.size_of_answer_eq_ok came
  have few := ZoneSystem.size_le_maxZone ascending
  rw [ZoneSystem.zoneIds, Array.size_map] at within
  have rows : (packet.last.toNat + 1 - packet.first.toNat) * evaluator.width ≤
      (inputs.zones.maxZone.toNat + 1) * evaluator.width :=
    Nat.mul_le_mul_right _ (by omega)
  omega

/-- Packets that tile a list of zones lie inside it. -/
theorem zonesOf_of_tiles {zoneIds : Array UInt32} (few : zoneIds.size < 2 ^ 32)
    (tiles : Packet.Tiles zoneIds.size 0 packets) :
    ∀ packet ∈ packets, packet.zonesOf zoneIds =
      .ok (zoneIds.extract packet.first.toNat (packet.last.toNat + 1)).toList := by
  intro packet member
  obtain ⟨ordered, within⟩ := tiles.inside packet member
  have ordered : packet.first.toNat ≤ packet.last.toNat := ordered
  have past : packet.last.toNat + 1 < UInt64.size := by
    rw [show UInt64.size = 2 ^ 64 from rfl]
    omega
  exact (Packet.zonesOf_eq_ok_iff _).mpr ⟨⟨past, by omega, within⟩, rfl⟩

/-- Packets that tile a list of zones with proper answers all have results. -/
theorem exists_outcome_of_tiles (steady : evaluator.Steady inputs)
    (few : inputs.zones.zoneIds.size < 2 ^ 32)
    (tiles : Packet.Tiles inputs.zones.zoneIds.size 0 packets)
    (proper : ∀ zone ∈ inputs.zones.zoneIds,
      Packet.Proper evaluator.width (evaluator.answer inputs zone)) :
    ∀ packet ∈ packets, ∃ result, packet.outcome evaluator inputs = .ok result := by
  intro packet member
  have inside := zonesOf_of_tiles few tiles packet member
  refine ⟨_, (Packet.outcome_eq_answer steady packet).trans
    ((Packet.answer_eq_ok_iff _).mpr ⟨_, inside, fun zone covered => proper zone ?_, rfl⟩)⟩
  obtain ⟨position, _, found⟩ := Array.mem_extract_iff_getElem.mp (Array.mem_toList_iff.mp covered)
  exact found ▸ Array.getElem_mem _

/-- Results of packets that tile the list, in any order, are merged into the table of the
answers, and there are such results only if all answers are proper. -/
theorem merge_eq_ok (steady : evaluator.Steady inputs)
    (ascending : ZoneSystem.Ascending inputs.zones.zones.toList)
    (holdable : 4 * ((inputs.zones.maxZone.toNat + 1) * evaluator.width) < 2 ^ 63)
    (tiles : Packet.Tiles inputs.zones.zoneIds.size 0 packets) {results : List PacketResult}
    (reordered : (results.map .ok).Perm (packets.map fun packet => packet.outcome evaluator inputs)) :
    (∀ zone ∈ inputs.zones.zoneIds, Packet.Proper evaluator.width (evaluator.answer inputs zone)) ∧
      AccessibilityTable.merge inputs.zones.maxZone evaluator.width inputs.zones.zoneIds results =
        .ok (.ofAnswers inputs.zones.maxZone evaluator.width (evaluator.answer inputs)
          inputs.zones.zoneIds) := by
  have every : ∀ packet ∈ packets, ∃ result, packet.outcome evaluator inputs = .ok result := by
    intro packet member
    obtain ⟨result, _, came⟩ := List.mem_map.mp (reordered.symm.subset (List.mem_map_of_mem member))
    exact ⟨result, came.symm⟩
  obtain ⟨inOrder, outcomes⟩ := exists_map_eq_iff.mpr every
  rw [outcomes] at reordered
  have shuffled : results.Perm inOrder :=
    (List.map_perm_map_iff fun _ _ same => Except.ok.inj same).mp reordered
  simp only [Packet.outcome_eq_answer steady] at every outcomes
  have proper := proper_of_tiles tiles every
  simp only [List.drop_zero, Array.mem_toList_iff] at proper
  have few := ZoneSystem.size_le_maxZone ascending
  have small : inputs.zones.zoneIds.size * evaluator.width < UInt64.size := by
    have rows := Nat.mul_le_mul_right evaluator.width few
    rw [ZoneSystem.zoneIds, Array.size_map, show UInt64.size = 2 ^ 64 from rfl]
    omega
  exact ⟨proper, AccessibilityTable.merge_eq_ok tiles outcomes shuffled small
    (fun _ member => ZoneSystem.id_le_maxZone ascending member) proper⟩

end Table

/-- A job has a table exactly if all answers are proper, and it is then the table of the
answers. -/
theorem compute_eq_ok_iff (staffed : Staffed evaluator inputs executor state)
    (steady : evaluator.Steady inputs) (valid : inputs.cacheSpec.validate = .ok ())
    (ascending : ZoneSystem.Ascending inputs.zones.zones.toList)
    (few : inputs.zones.zoneIds.size < 2 ^ 32)
    (holdable : 4 * ((inputs.zones.maxZone.toNat + 1) * evaluator.width) < 2 ^ 63)
    {packetSize : UInt64} (some_size : packetSize ≠ 0) (found : AccessibilityTable) :
    (compute executor inputs packetSize evaluator.width state).1 = .ok found ↔
      (∀ zone ∈ inputs.zones.zoneIds, Packet.Proper evaluator.width (evaluator.answer inputs zone)) ∧
        found = .ofAnswers inputs.zones.maxZone evaluator.width (evaluator.answer inputs)
          inputs.zones.zoneIds := by
  obtain ⟨packets, cut, tiles, distinct⟩ := Packet.exists_ranges few some_size
  have small := small_of_tiles steady ascending holdable tiles
  rw [compute_eq_ok cut]
  constructor
  · rintro ⟨results, came, merged⟩
    have reordered := staffed.perm_of_submit_eq_ok steady valid distinct small came
    obtain ⟨proper, table⟩ := merge_eq_ok steady ascending holdable tiles reordered
    exact ⟨proper, Except.ok.inj (merged.symm.trans table)⟩
  · rintro ⟨proper, rfl⟩
    have every := exists_outcome_of_tiles steady few tiles proper
    have ordered : ∀ packet ∈ packets, packet.first ≤ packet.last :=
      fun packet member => (tiles.inside packet member).1
    obtain ⟨results, came⟩ := staffed.submit_eq_ok steady valid distinct ordered small every
    have reordered := staffed.perm_of_submit_eq_ok steady valid distinct small came
    exact ⟨results, came, (merge_eq_ok steady ascending holdable tiles reordered).2⟩

/-- What the table of a job holds. -/
structure Tabulates (evaluator : Evaluator) (inputs : JobInputs) (table : AccessibilityTable) :
    Prop where
  highest : table.maxZone = inputs.zones.maxZone
  size : table.values.size = (inputs.zones.maxZone.toNat + 1) * evaluator.width
  /-- A zone has its answer's numbers in their order, as singles. -/
  zone : ∀ zone ∈ inputs.zones.zoneIds, ∃ row, evaluator.answer inputs zone = .ok row ∧
    table.row? zone = some (row.map Double.toSingle).toArray
  /-- An id of no zone has zeros. -/
  gap : ∀ id ≤ inputs.zones.maxZone, id ∉ inputs.zones.zoneIds →
    table.row? id = some (.replicate evaluator.width .zero)
  beyond : ∀ id, inputs.zones.maxZone < id → table.row? id = none

/-- The table of proper answers is that of the job. -/
theorem tabulates_ofAnswers (ascending : ZoneSystem.Ascending inputs.zones.zones.toList)
    (proper : ∀ zone ∈ inputs.zones.zoneIds,
      Packet.Proper evaluator.width (evaluator.answer inputs zone)) :
    Tabulates evaluator inputs (.ofAnswers inputs.zones.maxZone evaluator.width
      (evaluator.answer inputs) inputs.zones.zoneIds) := by
  have inside : ∀ zone ∈ inputs.zones.zoneIds, zone ≤ inputs.zones.maxZone :=
    fun _ member => ZoneSystem.id_le_maxZone ascending member
  obtain ⟨highest, width, size⟩ := @AccessibilityTable.placed_frame
    (.zeros inputs.zones.maxZone evaluator.width)
    (AccessibilityTable.rowsOf (evaluator.answer inputs)) inputs.zones.zoneIds.toList
  refine ⟨highest, size.trans (by simp [AccessibilityTable.zeros]), fun zone member => ?_,
    fun id there missing => ?_, fun id past => ?_⟩
  · have own := proper zone member
    have row := AccessibilityTable.row?_ofAnswers inside proper (inside zone member)
    rw [if_pos member] at row
    cases came : evaluator.answer inputs zone with
    | ok values => exact ⟨values, rfl, by rw [row, came]; rfl⟩
    | error fault =>
      rw [came] at own
      exact own.elim
  · have row := AccessibilityTable.row?_ofAnswers inside proper there
    rwa [if_neg missing] at row
  · exact AccessibilityTable.row?_eq_none_iff.mpr (highest ▸ past)

/-- A job on zones that were built from records has a table exactly if the evaluator gives
every zone as many finite numbers as there are alternatives. The table holds these numbers,
and it is the same for every executor, in every interleaving of its workers, and for every
size of packets. It has to fit in memory, at four bytes to a number. -/
theorem compute_answers {names : List String} {records : List Zone}
    (built : ZoneSystem.ofZones names records = .ok inputs.zones)
    (few : inputs.zones.zones.size < 2 ^ 32) (valid : inputs.cacheSpec.validate = .ok ())
    (steady : evaluator.Steady inputs)
    (holdable : 4 * ((inputs.zones.maxZone.toNat + 1) * evaluator.width) < 2 ^ 63) :
    ∃ table, ((∀ zone ∈ inputs.zones.zoneIds,
        Packet.Proper evaluator.width (evaluator.answer inputs zone)) →
          Tabulates evaluator inputs table) ∧
      ∀ (σ : Type) (executor : Executor σ) (state : σ), Staffed evaluator inputs executor state →
        ∀ packetSize ≠ 0, ∀ found,
          (compute executor inputs packetSize evaluator.width state).1 = .ok found ↔
            (∀ zone ∈ inputs.zones.zoneIds,
              Packet.Proper evaluator.width (evaluator.answer inputs zone)) ∧ found = table := by
  have ascending := ZoneSystem.ascending_of_ofZones built
  refine ⟨.ofAnswers inputs.zones.maxZone evaluator.width (evaluator.answer inputs)
    inputs.zones.zoneIds, tabulates_ofAnswers ascending, ?_⟩
  intro σ executor state staffed packetSize some_size found
  exact compute_eq_ok_iff staffed steady valid ascending
    (by rwa [ZoneSystem.zoneIds, Array.size_map]) holdable some_size found

/-- An evaluator that gives every zone a one. -/
def level : Evaluator := .ofFunction ["a"] fun _ _ => .ok [.one]

theorem level_steady (inputs : JobInputs) : level.Steady inputs :=
  Evaluator.steady_of_quiet fun _ => ⟨_, rfl⟩

theorem ofZones_pairInputs :
    ZoneSystem.ofZones [] [⟨3, .zero, .zero, ⟨0, 0⟩, []⟩, ⟨1, .zero, .zero, ⟨0, 0⟩, []⟩] =
      .ok Loopback.pairInputs.zones := by
  have sorted : ZoneSystem.ordered [⟨3, .zero, .zero, ⟨0, 0⟩, []⟩, ⟨1, .zero, .zero, ⟨0, 0⟩, []⟩] =
      [⟨1, .zero, .zero, ⟨0, 0⟩, []⟩, ⟨3, .zero, .zero, ⟨0, 0⟩, []⟩] := by
    simp [ZoneSystem.ordered, List.mergeSort, List.MergeSort.Internal.splitInTwo]
  simp only [ZoneSystem.ofZones, sorted]
  rfl

theorem compute_answers_level :
    ∃ table : AccessibilityTable, table.row? 2 = some #[.zero] ∧ table.row? 3 = some #[⟨0x3F800000⟩] ∧
      (∃ executor, LocalExecutor.create 2 level [⟨1, 1⟩, ⟨0, 0⟩, ⟨0, 0⟩] = .ok executor ∧
        (compute executor Loopback.pairInputs 1 1 (.empty ⟨3, 0, 1, 1⟩)).1 = .ok table) ∧
      ∃ carrier, Loopback.transport 3 level [] [2, 0, 2] = .ok carrier ∧
        (compute (DistributedExecutor.create carrier 1) Loopback.pairInputs 5 1
          (DistributedExecutor.start [])).1 = .ok table := by
  have few : Loopback.pairInputs.zones.zones.size < 2 ^ 32 := by decide
  have holdable : 4 * ((Loopback.pairInputs.zones.maxZone.toNat + 1) * level.width) < 2 ^ 63 := by
    decide
  obtain ⟨table, tabulates, same⟩ :=
    compute_answers ofZones_pairInputs few rfl (level_steady Loopback.pairInputs) holdable
  have proper : ∀ zone ∈ Loopback.pairInputs.zones.zoneIds,
      Packet.Proper level.width (level.answer Loopback.pairInputs zone) := by
    intro zone member
    show Packet.Proper 1 (.ok [.one])
    exact ⟨rfl, by decide⟩
  have tabulated := tabulates proper
  refine ⟨table, tabulated.gap 2 (by decide) (by decide +kernel), ?_, ?_, ?_⟩
  · obtain ⟨row, answered, found⟩ := tabulated.zone 3 (by decide +kernel)
    obtain rfl : [.one] = row := Except.ok.inj answered
    rw [found]
    decide +kernel
  · obtain ⟨executor, created⟩ : ∃ executor,
        LocalExecutor.create 2 level [⟨1, 1⟩, ⟨0, 0⟩, ⟨0, 0⟩] = .ok executor := ⟨_, rfl⟩
    have staffed := Staffed.workers created (level.served_empty Loopback.pairInputs)
    exact ⟨executor, created, (same _ _ _ staffed 1 (by decide) table).mpr ⟨proper, rfl⟩⟩
  · obtain ⟨carrier, created⟩ : ∃ carrier, Loopback.transport 3 level [] [2, 0, 2] = .ok carrier :=
      ⟨_, rfl⟩
    have staffed : Staffed level Loopback.pairInputs _ (DistributedExecutor.start []) :=
      .nodes created (by simp) Loopback.sendable_pairInputs
    exact ⟨carrier, created, (same _ _ _ staffed 5 (by decide) table).mpr ⟨proper, rfl⟩⟩

end Accessibility.Job
