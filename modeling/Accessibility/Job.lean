import Accessibility.Execution.Executor
import Accessibility.Table.Merge

/-! One accessibility job: cut the zone list into packets, have an executor evaluate
them, and merge the results into a table. -/
namespace Accessibility.Job

/-- The table of a job. -/
def compute {σ : Type} (executor : Executor σ) (inputs : JobInputs) (packetSize : UInt64)
    (alternatives : Nat) : StateM σ (Outcome AccessibilityTable) := do
  let zoneIds := inputs.zones.zoneIds
  match Packet.ranges zoneIds.size.toUInt64 packetSize with
  | .error fault => return .error fault
  | .ok packets =>
    match ← executor.submit packets inputs with
    | .error fault => return .error fault
    | .ok results =>
      return AccessibilityTable.merge inputs.zones.maxZone alternatives zoneIds results

end Accessibility.Job
