import Accessibility.Packet.Result

/-! Executors evaluate the packets of a job. All packets are evaluated or the job
fails: there is no partial answer, and results may come back in any order. What an
executor keeps from one job to the next is its state. -/
namespace Accessibility

/-- A strategy for evaluating packets, with state of type `σ`. -/
structure Executor (σ : Type) where
  /-- A short name for progress lines. -/
  name : String
  submit : List Packet → JobInputs → StateM σ (Outcome (List PacketResult))

end Accessibility
