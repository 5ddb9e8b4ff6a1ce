import Accessibility.Proofs.Evaluation.Faults
import Accessibility.Proofs.Job.Values

/-! A job that is set up fails for the data alone: with packets that are not empty, a cache of
valid dimensions and an evaluator that has no complaint of the configuration, no job ends in a fault
of the configuration, and its table has the alternatives asked for. -/
namespace Accessibility

theorem Packet.configured_ranges (length : UInt64) {size : UInt64} (some_size : size ≠ 0) :
    Configured (Packet.ranges length size) :=
  .of_outOfBounds fun _ => ranges_eq_error some_size

namespace Job

variable {evaluator : Evaluator} {σ : Type} {executor : Executor σ} {packets : List Packet}
  {inputs : JobInputs}

/-- Packets inside the list end in no fault of the configuration unless the evaluator does. -/
theorem configured_mayCome (evaluates : ∀ zone, (evaluator.evaluate zone (.ofJob inputs)).Configured)
    (inside : ∀ packet ∈ packets, ∃ zones, packet.zonesOf inputs.zones.zoneIds = .ok zones)
    {fault : Fault} (came : LocalExecutor.MayCome evaluator inputs packets (.error fault)) :
    fault.isConfiguration = false := by
  obtain ⟨packet, member, ends⟩ := came
  rcases Packet.mayEnd_compute_error ends with outside | ⟨zone, fails⟩ | ⟨zone, text, rfl⟩
  · obtain ⟨zones, within⟩ := inside packet member
    rw [within] at outside
    cases outside
  · exact evaluates zone fault fails
  · rfl

theorem Crew.configured_submit (crew : Crew evaluator executor)
    (evaluates : ∀ zone, (evaluator.evaluate zone (.ofJob inputs)).Configured)
    (inside : ∀ packet ∈ packets, ∃ zones, packet.zonesOf inputs.zones.zoneIds = .ok zones)
    (valid : inputs.cacheSpec.validate = .ok ()) (state : σ) :
    Configured (executor.submit packets inputs state).1 := by
  intro fault failed
  cases crew with
  | @workers threads schedule _ created =>
    rw [LocalExecutor.submit_of_create created] at failed
    exact configured_mayCome evaluates inside
      ((LocalExecutor.submit_traced (LocalExecutor.some_threads_of_create created) evaluator schedule
        inputs packets state).2 fault failed)
  | nodes alternatives created =>
    rcases (DistributedExecutor.submit_traced created alternatives packets inputs state).2 fault failed
      with came | refused
    · cases came <;> rfl
    · rw [valid] at refused
      cases refused

/-- A job that is set up fails for the data alone. -/
theorem Crew.configured_compute (crew : Crew evaluator executor)
    (evaluates : ∀ zone, (evaluator.evaluate zone (.ofJob inputs)).Configured)
    (few : inputs.zones.zoneIds.size < 2 ^ 32) (valid : inputs.cacheSpec.validate = .ok ())
    {packetSize : UInt64} (some_size : packetSize ≠ 0) (alternatives : Nat) (state : σ) :
    Configured (compute executor inputs packetSize alternatives state).1 := by
  obtain ⟨packets, cut, tiles, _⟩ := Packet.exists_ranges few some_size
  have inside : ∀ packet ∈ packets, ∃ zones, packet.zonesOf inputs.zones.zoneIds = .ok zones :=
    fun packet member => ⟨_, zonesOf_of_tiles few tiles packet member⟩
  rw [compute_eq_bind cut]
  apply Configured.bind (crew.configured_submit evaluates inside valid state)
  intro results _
  exact AccessibilityTable.configured_merge _ _ _ results

/-- The table of a job has the alternatives it was asked for. -/
theorem width_compute {packetSize : UInt64} {alternatives : Nat} {state : σ}
    {table : AccessibilityTable}
    (computed : (compute executor inputs packetSize alternatives state).1 = .ok table) :
    table.width = alternatives := by
  cases cut : Packet.ranges inputs.zones.zoneIds.size.toUInt64 packetSize with
  | error fault =>
    simp only [compute, cut] at computed
    cases computed
  | ok packets =>
    obtain ⟨results, _, merged⟩ := (compute_eq_ok cut alternatives state table).mp computed
    exact AccessibilityTable.width_of_merge merged

end Job

end Accessibility
