import Accessibility.Proofs.Execution.Outcomes
import Accessibility.Proofs.Job
import Accessibility.Proofs.Table.Provenance

/-! The numbers in the results of packets and in the tables of jobs, for any evaluator and
whatever its caches have been through. None is a NaN: what an evaluator gives is checked
before it is made single. But it is checked as a double, so a finite number of the
evaluator that is wider than every single stands in the table as an infinite one
(`values_finite`). -/
namespace Accessibility.Job

/-- The executors that evaluate: workers in the process, or nodes behind a loopback. -/
inductive Crew (evaluator : Evaluator) : {σ : Type} → Executor σ → Prop where
  | workers {threads : Nat} {schedule : List LocalExecutor.Move} {executor : Executor UtilityCache}
    (created : LocalExecutor.create threads evaluator schedule = .ok executor) : Crew evaluator executor
  | nodes {nodes : Nat} {unreachable schedule : List Nat} {carrier : Transport (List Nat)}
    (alternatives : UInt64)
    (created : Loopback.transport nodes evaluator unreachable schedule = .ok carrier) :
    Crew evaluator (DistributedExecutor.create carrier alternatives)

variable {evaluator : Evaluator} {σ : Type} {executor : Executor σ} {packets : List Packet}
  {inputs : JobInputs}

/-- The results of a job are what the evaluation of its packets may end in. -/
theorem Crew.mayCome (crew : Crew evaluator executor) (state : σ) {results : List PacketResult}
    (came : (executor.submit packets inputs state).1 = .ok results) :
    ∀ result ∈ results, LocalExecutor.MayCome evaluator inputs packets (.ok result) := by
  cases crew with
  | @workers threads schedule _ created =>
    rw [LocalExecutor.submit_of_create created] at came
    exact (LocalExecutor.submit_traced (LocalExecutor.some_threads_of_create created) evaluator schedule
      inputs packets state).1 results came
  | nodes alternatives created =>
    exact (DistributedExecutor.submit_traced created alternatives packets inputs state).1 results came

/-- Every cell of a job's table is a zero or a finite number that the evaluator may give, made a
single. -/
theorem Crew.exists_mayGive (crew : Crew evaluator executor) {packetSize : UInt64} {alternatives : Nat}
    {state : σ} {table : AccessibilityTable}
    (computed : (compute executor inputs packetSize alternatives state).1 = .ok table) {value : Single}
    (held : value ∈ table.values) :
    value = .zero ∨ ∃ x, evaluator.MayGive (.ofJob inputs) x ∧ x.isFinite = true ∧ value = x.toSingle := by
  cases cut : Packet.ranges inputs.zones.zoneIds.size.toUInt64 packetSize with
  | error fault =>
    simp only [compute, cut] at computed
    cases computed
  | ok packets =>
    obtain ⟨results, came, merged⟩ := (compute_eq_ok cut alternatives state table).mp computed
    obtain blank | ⟨result, member, given⟩ := AccessibilityTable.mem_of_merge merged held
    · exact .inl blank
    · obtain ⟨packet, _, ends⟩ := crew.mayCome state came result member
      exact .inr (Packet.exists_mayGive ends given)

/-- No packet's result and no job's table holds a NaN. A packet's values are all finite exactly
if the numbers that the evaluator gave are narrow; an infinite cell of a table is a finite number
that the evaluator may give, wider than every single. -/
theorem values_finite (evaluator : Evaluator) :
    (∀ (packet : Packet) (zoneIds : Array UInt32) (context : Context) (cache : UtilityCache)
        (result : PacketResult),
      ((packet.compute zoneIds evaluator context).run cache).1 = .ok result →
      ∃ zones, packet.zonesOf zoneIds = .ok zones ∧
        (∀ value ∈ result.values, value.isNaN = false) ∧
        ((∀ value ∈ result.values, value.isFinite = true) ↔
          ∀ row ∈ evaluator.rowsOn context zones cache, ∀ x ∈ row, x.Narrow)) ∧
    ∀ (σ : Type) (executor : Executor σ) (inputs : JobInputs) (packetSize : UInt64) (alternatives : Nat)
        (state : σ) (table : AccessibilityTable),
      Crew evaluator executor → (compute executor inputs packetSize alternatives state).1 = .ok table →
      ∀ value ∈ table.values, value.isNaN = false ∧
        (value.isFinite = true ∨ ∃ x, evaluator.MayGive (.ofJob inputs) x ∧ x.isFinite = true ∧
          ¬ x.Narrow ∧ value = x.toSingle) := by
  constructor
  · intro packet zoneIds context cache result came
    obtain ⟨zones, inside, composed, finite⟩ := Packet.run_compute came
    have origin : ∀ value ∈ result.values, ∃ row ∈ evaluator.rowsOn context zones cache, ∃ x ∈ row,
        x.toSingle = value := by
      intro value held
      rw [← Array.mem_toList_iff, composed, List.mem_map] at held
      obtain ⟨x, given, rfl⟩ := held
      obtain ⟨row, there, member⟩ := List.mem_flatten.mp given
      exact ⟨row, there, x, member, rfl⟩
    refine ⟨zones, inside, fun value held => ?_, fun every row there x member => ?_, fun narrow value held => ?_⟩
    · obtain ⟨row, there, x, member, rfl⟩ := origin value held
      exact Double.isNaN_toSingle (finite row there x member)
    · refine (Double.isFinite_toSingle_iff (finite row there x member)).mp (every _ ?_)
      rw [← Array.mem_toList_iff, composed]
      exact List.mem_map_of_mem (List.mem_flatten_of_mem there member)
    · obtain ⟨row, there, x, member, rfl⟩ := origin value held
      exact (Double.isFinite_toSingle_iff (finite row there x member)).mpr (narrow row there x member)
  · intro σ executor inputs packetSize alternatives state table crew computed value held
    obtain rfl | ⟨x, gives, finite, rfl⟩ := crew.exists_mayGive computed held
    · exact ⟨by decide, .inl (by decide)⟩
    · refine ⟨Double.isNaN_toSingle finite, ?_⟩
      by_cases narrow : x.Narrow
      · exact .inl ((Double.isFinite_toSingle_iff finite).mpr narrow)
      · exact .inr ⟨x, gives, finite, narrow, rfl⟩

/-- A packet of one zone that is given a one, and a job of two such zones. -/
theorem values_finite_level :
    (∃ result, ((Packet.compute ⟨1, 0, 0⟩ #[1] level {}).run (.empty ⟨1, 0, 1, 1⟩)).1 = .ok result ∧
      ∀ value ∈ result.values, value.isFinite = true) ∧
    ∃ executor, LocalExecutor.create 2 level = .ok executor ∧
      ∀ table, (compute executor Loopback.pairInputs 1 1 (.empty ⟨3, 0, 1, 1⟩)).1 = .ok table →
        ∀ value ∈ table.values, value.isNaN = false := by
  obtain ⟨packets, jobs⟩ := values_finite level
  constructor
  · have came : ((Packet.compute ⟨1, 0, 0⟩ #[1] level {}).run (.empty ⟨1, 0, 1, 1⟩)).1 =
        .ok ⟨1, 0, 0, 1, #[⟨0x3F800000⟩]⟩ := by decide +kernel
    obtain ⟨zones, inside, _, finite⟩ := packets _ _ _ _ _ came
    refine ⟨_, came, finite.mpr ?_⟩
    have narrow : Double.one.Narrow := by
      have unpacked : Double.one.unpack = (2 ^ 52, -52) := by decide +kernel
      rw [Double.Narrow, Double.size, unpacked]
      norm_num
    obtain rfl : [1] = zones := Except.ok.inj ((by decide +kernel : _ = _).symm.trans inside)
    intro row there x member
    obtain rfl := List.mem_singleton.mp there
    obtain rfl := List.mem_singleton.mp member
    exact narrow
  · obtain ⟨executor, created⟩ : ∃ executor, LocalExecutor.create 2 level = .ok executor := ⟨_, rfl⟩
    refine ⟨executor, created, fun table computed value held => ?_⟩
    exact (jobs _ _ _ _ _ _ table (.workers created) computed value held).1

/-- An evaluator whose one number, `1e39`, is wider than every single. -/
def wide : Evaluator := .ofFunction ["a"] fun _ _ => .ok [⟨0x48078287F49C4A1D⟩]

/-- A packet of a wide evaluator has a result, and its job a table, with infinite values. -/
theorem values_infinite :
    (∃ result, ((Packet.compute ⟨1, 0, 0⟩ #[1] wide {}).run (.empty ⟨1, 0, 1, 1⟩)).1 = .ok result ∧
      ∃ value ∈ result.values, value.isFinite = false) ∧
    ∃ executor table, LocalExecutor.create 1 wide = .ok executor ∧
      (compute executor Loopback.pairInputs 2 1 (.empty Loopback.pairInputs.cacheSpec)).1 = .ok table ∧
      ∃ value ∈ table.values, value.isFinite = false := by
  constructor
  · exact ⟨⟨1, 0, 0, 1, #[⟨0x7F800000⟩]⟩, by decide +kernel, ⟨0x7F800000⟩, by simp, by decide⟩
  · have cut : Packet.ranges Loopback.pairInputs.zones.zoneIds.size.toUInt64 2 = .ok [⟨1, 0, 1⟩] := by
      decide +kernel
    refine ⟨_, ⟨"zone", ["alt_0"], 3, #[.zero, ⟨0x7F800000⟩, .zero, ⟨0x7F800000⟩]⟩, rfl,
      (compute_eq_ok cut ..).mpr ⟨[⟨1, 0, 1, 1, #[⟨0x7F800000⟩, ⟨0x7F800000⟩]⟩], ?_, ?_⟩,
      ⟨0x7F800000⟩, by simp, by decide⟩
    · decide +kernel
    · rw [AccessibilityTable.merge, List.mergeSort_singleton]
      decide +kernel

end Accessibility.Job
