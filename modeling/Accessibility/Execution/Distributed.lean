import Accessibility.Execution.Executor
import Accessibility.Wire.Frame

/-! Distributed execution. The inputs travel once per job, as a bundle; each packet
is one task, and a transport brings back replies in any order. A job is accepted only
if every packet is answered exactly once, by a reply of this job and with a result of
the right shape; anything else aborts it. -/
namespace Accessibility

/-- Carries a job to its nodes and their replies back. -/
structure Transport (σ : Type) where
  nodeCount : Nat
  runJob : List UInt8 → List PacketTask → StateM σ (Outcome (List TaskReply))

/-- The state of a distributed executor: the next job's number and whatever the
transport keeps. -/
structure Dispatch (σ : Type) where
  nextJob : UInt64
  transport : σ

namespace DistributedExecutor

/-- Why a job's replies are not accepted. -/
inductive Refusal where
  | otherJob (found current : UInt64)
  | unexpected (packetId : UInt32)
  | malformed (packet : Packet) (result : PacketResult)
  | failed (packetId : UInt32) (node : UInt64) (text : String)
  | failedZone (zone : UInt32) (node : UInt64) (text : String)
  | missing (packetIds : List UInt32)
  /-- The values that a packet should have cannot be counted. -/
  | overrun (fault : Fault)
  deriving DecidableEq, Repr

def Refusal.fault : Refusal → Fault
  | otherJob found current =>
    .distribution s!"reply for job {found} arrived during job {current}"
  | unexpected packetId =>
    .distribution s!"unexpected or duplicate reply for packet {packetId}"
  | malformed packet result =>
    .distribution s!"packet {packet.id} came back malformed: rows [{result.first}, {result.last}] x {result.alternatives} alternatives, {result.values.size} values"
  | failed packetId node text =>
    .distribution s!"packet {packetId} failed on node {node}: {text}"
  | failedZone zone node text => .computation zone s!"node {node}: {text}"
  | missing packetIds =>
    let ids := "[" ++ ", ".intercalate (packetIds.map toString) ++ "]"
    .distribution s!"{packetIds.length} packets never returned: {ids}"
  | overrun fault => fault

/-- The packets to be answered, one for each id; of several with one id the last. -/
def pendingOf : List Packet → List Packet
  | [] => []
  | packet :: rest =>
    if rest.any (·.id = packet.id) then pendingOf rest else packet :: pendingOf rest

/-- Whether a result has the range of its packet and the right number of values, which is only
counted for the right range. -/
def fits (alternatives : UInt64) (packet : Packet) (result : PacketResult) : Outcome Bool := do
  if result.first ≠ packet.first || result.last ≠ packet.last ||
      result.alternatives ≠ alternatives then
    return false
  let rows ← packet.rowCount
  let values ← Word.product rows alternatives
  return result.values.size = values.toNat

/-- What one reply adds: the result it brings and the packets still pending. -/
def acceptReply (jobId alternatives : UInt64) (pending : List Packet) (reply : TaskReply) :
    Except Refusal (PacketResult × List Packet) :=
  if reply.jobId ≠ jobId then .error (.otherJob reply.jobId jobId)
  else
    match pending.find? (·.id = reply.packetId) with
    | none => .error (.unexpected reply.packetId)
    | some packet =>
      match reply.outcome with
      | .completed result =>
        match fits alternatives packet result with
        | .ok true => .ok (result, pending.filter (·.id ≠ reply.packetId))
        | .ok false => .error (.malformed packet result)
        | .error fault => .error (.overrun fault)
      | .failed (some zone) text => .error (.failedZone zone reply.node text)
      | .failed none text => .error (.failed packet.id reply.node text)

/-- Results of a job's replies in the order of their arrival. -/
def collect (jobId alternatives : UInt64) :
    List Packet → List TaskReply → Except Refusal (List PacketResult)
  | [], [] => .ok []
  | pending, [] => .error (.missing ((pending.map (·.id)).mergeSort fun a b => a ≤ b))
  | pending, reply :: rest => do
    let (result, pending) ← acceptReply jobId alternatives pending reply
    let results ← collect jobId alternatives pending rest
    return result :: results

/-- What the transport makes of the next job. -/
def send {σ : Type} (transport : Transport σ) (alternatives : UInt64) (packets : List Packet)
    (inputs : JobInputs) (dispatch : Dispatch σ) : Outcome (List TaskReply) × σ :=
  let bundle := JobBundle.encodeParts dispatch.nextJob alternatives inputs
  let tasks := packets.map fun packet => { jobId := dispatch.nextJob, packet }
  transport.runJob bundle tasks dispatch.transport

/-- The outcome of a job whose transport has come back. -/
def settle (jobId alternatives : UInt64) (packets : List Packet) :
    Outcome (List TaskReply) → Outcome (List PacketResult)
  | .error fault => .error fault
  | .ok replies =>
    match collect jobId alternatives (pendingOf packets) replies with
    | .ok results => .ok results
    | .error refusal => .error refusal.fault

/-- Sends a job out and collects its replies. Every job takes a number of its own,
failed ones too. -/
def submit {σ : Type} (transport : Transport σ) (alternatives : UInt64) (packets : List Packet)
    (inputs : JobInputs) : StateM (Dispatch σ) (Outcome (List PacketResult)) := fun dispatch =>
  let (answer, state) := send transport alternatives packets inputs dispatch
  (settle dispatch.nextJob alternatives packets answer,
    { nextJob := dispatch.nextJob + 1, transport := state })

/-- An executor over a transport, for results with the given number of
alternatives. -/
def create {σ : Type} (transport : Transport σ) (alternatives : UInt64) :
    Executor (Dispatch σ) where
  name := "distributed"
  submit := submit transport alternatives

/-- The state before the first job. -/
def start {σ : Type} (state : σ) : Dispatch σ := ⟨1, state⟩

end DistributedExecutor

end Accessibility
