import Accessibility.Proofs.Execution.Loopback
import Accessibility.Proofs.Execution.Moves
import Accessibility.Proofs.Execution.Replies
import Accessibility.Proofs.Packet.Outcomes
import Accessibility.Proofs.Wire.Corruption

/-! What comes out of a job, for any evaluator and whatever its caches have been through.
Workers hand on nothing but what the evaluation of a packet may end in
(`LocalExecutor.submit_traced`); nodes hand it on in their replies, and fail besides only
for want of what they need to start, or for a fault of the distribution
(`DistributedExecutor.submit_traced`). -/
namespace Accessibility

namespace LocalExecutor

variable {evaluator : Evaluator} {inputs : JobInputs} {packets : List Packet} {state : State}

/-- What the evaluation of some packet of the job may end in. -/
def MayCome (evaluator : Evaluator) (inputs : JobInputs) (packets : List Packet)
    (outcome : Outcome PacketResult) : Prop :=
  ∃ packet ∈ packets, (evaluation evaluator inputs packet).MayEnd outcome

/-- A worker that is busy stands in the evaluation of a packet. -/
def Worker.Traced (evaluator : Evaluator) (inputs : JobInputs) (packets : List Packet) : Worker → Prop
  | .free => True
  | .busy _ program => ∀ outcome, program.MayEnd outcome → MayCome evaluator inputs packets outcome

/-- A job under way, all of it traced to its packets. -/
structure Traced (evaluator : Evaluator) (inputs : JobInputs) (packets : List Packet) (state : State) :
    Prop where
  waiting : ∀ entry ∈ state.waiting, entry.1 ∈ packets
  workers : ∀ worker ∈ state.workers, worker.Traced evaluator inputs packets
  results : ∀ result, some result ∈ state.results → MayCome evaluator inputs packets (.ok result)
  fault : ∀ fault, state.fault = some fault → MayCome evaluator inputs packets (.error fault)

theorem traced_initial (evaluator : Evaluator) (inputs : JobInputs) (packets : List Packet)
    (threads : Nat) (cache : UtilityCache) :
    Traced evaluator inputs packets (initial threads packets cache) where
  waiting entry member := (List.mem_zipIdx_iff_getElem?.mp member) |> List.mem_of_getElem?
  workers worker member := by
    obtain rfl := List.eq_of_mem_replicate member
    trivial
  results result member := by simp [initial] at member
  fault fault noted := by cases noted

theorem Traced.report (traced : Traced evaluator inputs packets state) {outcome : Outcome PacketResult}
    (position : Nat) (came : MayCome evaluator inputs packets outcome) :
    Traced evaluator inputs packets (report state position outcome) := by
  cases outcome with
  | ok result =>
    refine { traced with results := fun found member => ?_ }
    obtain old | same := List.mem_or_eq_of_mem_set member
    · exact traced.results found old
    · cases same
      exact came
  | error fault =>
    refine { traced with fault := fun noted said => ?_ }
    cases said
    obtain latest | earlier := firstFault_eq state.fault fault
    · rw [latest]
      exact came
    · exact traced.fault _ earlier

theorem Traced.setWorker (traced : Traced evaluator inputs packets state) (index : Nat) (worker : Worker)
    (cache : UtilityCache) (new : worker.Traced evaluator inputs packets) :
    Traced evaluator inputs packets { state with workers := state.workers.set index worker, cache } where
  waiting := traced.waiting
  workers other member := by
    obtain old | rfl := List.mem_or_eq_of_mem_set member
    · exact traced.workers other old
    · exact new
  results := traced.results
  fault := traced.fault

theorem Traced.step (traced : Traced evaluator inputs packets state) (move : Move) :
    Traced evaluator inputs packets (step evaluator inputs move state) := by
  unfold LocalExecutor.step
  split
  next => exact traced
  next stood =>
    split
    next => exact traced
    next packet position waits =>
      have listed := traced.waiting _ (List.mem_of_getElem? waits)
      have begun := traced.setWorker move.worker (.busy position (evaluation evaluator inputs packet))
        state.cache fun outcome ends => ⟨packet, listed, ends⟩
      exact { begun with waiting := fun entry member => traced.waiting entry (List.mem_of_mem_eraseIdx member) }
  next position outcome stood =>
    have came := traced.workers _ (List.mem_of_getElem? stood) outcome (.done outcome)
    exact (traced.setWorker move.worker .free state.cache trivial).report position came
  next position program _ stood =>
    have came := traced.workers _ (List.mem_of_getElem? stood)
    exact traced.setWorker move.worker _ _ fun outcome ends => came outcome (.of_advance ends)

/-- What the workers answer is traced to the packets of the job. -/
theorem submit_traced {threads : Nat} (some_threads : threads ≠ 0) (evaluator : Evaluator)
    (schedule : List Move) (inputs : JobInputs) (packets : List Packet) (cache : UtilityCache) :
    (∀ results, (submit threads evaluator schedule inputs packets cache).1 = .ok results →
        ∀ result ∈ results, MayCome evaluator inputs packets (.ok result)) ∧
      ∀ fault, (submit threads evaluator schedule inputs packets cache).1 = .error fault →
        MayCome evaluator inputs packets (.error fault) := by
  have keeps : ∀ state move, Traced evaluator inputs packets state →
      Traced evaluator inputs packets (step evaluator inputs move state) :=
    fun _ move traced => traced.step move
  obtain ⟨last, ended, final, _⟩ := submit_induction keeps some_threads schedule
    (traced_initial evaluator inputs packets threads cache)
  rw [ended]
  simp only [State.answer]
  split
  next fault noted =>
    refine ⟨fun _ came => (by cases came), fun other same => ?_⟩
    cases same
    exact final.fault fault noted
  next =>
    refine ⟨fun results came result member => ?_, fun other same => by cases same⟩
    cases came
    obtain ⟨entry, held, rfl⟩ := List.mem_filterMap.mp member
    exact final.results result held

end LocalExecutor

namespace Loopback

variable {setup : Setup} {tasks : List PacketTask} {state : State} {node : Node} {desk : Desk}
  {fault : Fault}

/-- What a node may report: that the evaluation of a task, on the inputs in the bundle, ended
as it may. -/
def MayReport (setup : Setup) (tasks : List PacketTask) (outcome : TaskOutcome) : Prop :=
  ∃ job, JobBundle.decode setup.bundle = .ok job ∧
    ∃ result, LocalExecutor.MayCome setup.evaluator job.inputs (tasks.map PacketTask.packet) result ∧
      outcome = .ofResult result

/-- What a node may fail for: a fault of the distribution, or dimensions in the bundle that no
cache can have. -/
inductive NodeFault (setup : Setup) : Fault → Prop where
  | distribution (text : String) : NodeFault setup (.distribution text)
  | cache {job : JobBundle} {fault : Fault} (opened : JobBundle.decode setup.bundle = .ok job)
    (refused : job.inputs.cacheSpec.validate = .error fault) : NodeFault setup fault

/-- A desk that holds the job of the bundle. -/
def Desk.Opened (setup : Setup) (desk : Desk) : Prop :=
  JobBundle.decode setup.bundle = .ok desk.job ∧ desk.zoneIds = desk.job.inputs.zones.zoneIds

/-- A node that holds nothing but the job, its tasks and what it may report or fail for. -/
inductive Node.Traced (setup : Setup) (tasks : List PacketTask) : Node → Prop where
  | starting : Traced setup tasks .starting
  | waiting {desk : Desk} (opened : desk.Opened setup) : Traced setup tasks (.waiting desk)
  | holding {desk : Desk} {task : PacketTask} (opened : desk.Opened setup) (listed : task ∈ tasks) :
    Traced setup tasks (.holding desk task)
  | evaluating {desk : Desk} {task : PacketTask} (opened : desk.Opened setup) (listed : task ∈ tasks) :
    Traced setup tasks (.evaluating desk task)
  | alarming {desk : Desk} {task : PacketTask} {outcome : TaskOutcome} (opened : desk.Opened setup)
    (reports : MayReport setup tasks outcome) : Traced setup tasks (.alarming desk task outcome)
  | replying {desk : Desk} {task : PacketTask} {outcome : TaskOutcome} (opened : desk.Opened setup)
    (reports : MayReport setup tasks outcome) : Traced setup tasks (.replying desk task outcome)
  | failing {fault : Fault} (told : NodeFault setup fault) : Traced setup tasks (.failing fault)
  | ended (count : Nat) : Traced setup tasks (.ended (.ok count))
  | failed {fault : Fault} (told : NodeFault setup fault) : Traced setup tasks (.ended (.error fault))

/-- A job under way, all of it traced to its bundle and its tasks. -/
structure Traced (setup : Setup) (tasks : List PacketTask) (state : State) : Prop where
  queue : ∀ task ∈ state.queue, task ∈ tasks
  replies : ∀ frame ∈ state.replies, ∃ reply : TaskReply,
    frame = reply.encode ∧ MayReport setup tasks reply.outcome
  nodes : ∀ node ∈ state.nodes, node.Traced setup tasks

theorem traced_initial (setup : Setup) (tasks : List PacketTask) :
    Traced setup tasks (initial setup tasks) where
  queue _ member := member
  replies frame member := by cases member
  nodes node member := by
    obtain rfl := List.eq_of_mem_replicate member
    exact .starting

/-- Bytes that are no bundle are a fault of the distribution. -/
private theorem nodeFault_of_decode (refused : JobBundle.decode setup.bundle = .error fault) :
    NodeFault setup fault := by
  unfold JobBundle.decode at refused
  split at refused
  next => cases refused
  next refusal _ =>
    cases refused
    obtain ⟨text, told⟩ := refusal.fault_eq
    rw [told]
    exact .distribution text

theorem traced_opening (setup : Setup) (tasks : List PacketTask) (index : Nat) :
    (opening setup index).Traced setup tasks := by
  unfold opening
  split
  · exact .failing (.distribution _)
  · split
    next fault refused => exact .failing (nodeFault_of_decode refused)
    next job opened =>
      split
      next fault refused =>
        refine .failing (.cache opened ?_)
        cases checked : job.inputs.cacheSpec.validate with
        | error own =>
          simp only [UtilityCache.create, checked, bind, Except.bind] at refused
          cases refused
          rfl
        | ok _ =>
          rw [(UtilityCache.create_eq_ok_iff _ _).mpr ⟨checked, rfl⟩] at refused
          cases refused
      next cache _ => exact .waiting ⟨opened, rfl⟩

theorem traced_evaluateTask {task : PacketTask} (opened : desk.Opened setup) (listed : task ∈ tasks) :
    (evaluateTask setup desk task).Traced setup tasks := by
  obtain ⟨decoded, zones⟩ := opened
  have ends := Evaluation.mayEnd_run
    (task.packet.compute desk.zoneIds setup.evaluator (.ofJob desk.job.inputs)) desk.cache
  have reports : MayReport setup tasks (.ofResult
      ((task.packet.compute desk.zoneIds setup.evaluator (.ofJob desk.job.inputs)).run desk.cache).1) :=
    ⟨desk.job, decoded, _, ⟨task.packet, List.mem_map_of_mem listed, zones ▸ ends⟩, rfl⟩
  simp only [evaluateTask]
  split
  · exact .failed (.distribution _)
  · split
    · exact .alarming ⟨decoded, zones⟩ reports
    · exact .replying ⟨decoded, zones⟩ reports

/-- One step of a node leaves it, and what all nodes share, traced. -/
theorem Node.Traced.advance (traced : node.Traced setup tasks) (shared : Loopback.Traced setup tasks state)
    (index : Nat) :
    (Loopback.advance setup index state node).2.Traced setup tasks ∧
      Loopback.Traced setup tasks (Loopback.advance setup index state node).1 := by
  cases traced with
  | starting => exact ⟨traced_opening setup tasks index, shared⟩
  | waiting opened =>
    simp only [Loopback.advance]
    split
    next => exact ⟨.ended _, shared⟩
    next task rest queued =>
      have listed : ∀ other ∈ task :: rest, other ∈ tasks := queued ▸ shared.queue
      exact ⟨.holding opened (listed task (.head _)),
        { shared with queue := fun other member => listed other (.tail _ member) }⟩
  | holding opened listed =>
    simp only [Loopback.advance]
    split
    · exact ⟨.ended _, shared⟩
    · split
      · exact ⟨.failing (.distribution _), shared⟩
      · exact ⟨.evaluating opened listed, shared⟩
  | evaluating opened listed => exact ⟨traced_evaluateTask opened listed, shared⟩
  | alarming opened reports => exact ⟨.replying opened reports, { shared with }⟩
  | @replying desk task outcome opened reports =>
    refine ⟨.waiting opened, { shared with replies := fun frame member => ?_ }⟩
    obtain old | new := List.mem_append.mp member
    · exact shared.replies frame old
    · exact ⟨replyTo index desk task outcome, List.mem_singleton.mp new, reports⟩
  | failing told => exact ⟨.failed told, { shared with }⟩
  | ended count => exact ⟨.ended count, shared⟩
  | failed told => exact ⟨.failed told, shared⟩

theorem Traced.step (traced : Traced setup tasks state) (index : Nat) :
    Traced setup tasks (step setup index state) := by
  unfold Loopback.step
  split
  next => exact traced
  next node stood =>
    obtain ⟨went, shared⟩ := (traced.nodes node (List.mem_of_getElem? stood)).advance traced index
    refine { shared with nodes := fun other member => ?_ }
    have member : other ∈ (Loopback.advance setup index state node).1.nodes.set index
      (Loopback.advance setup index state node).2 := member
    rw [advance_nodes] at member
    obtain old | rfl := List.mem_or_eq_of_mem_set member
    · exact traced.nodes other old
    · exact went

theorem Traced.runSchedule (traced : Traced setup tasks state) (schedule : List Nat) :
    Traced setup tasks (runSchedule setup schedule state) := by
  induction schedule generalizing state with
  | nil => exact traced
  | cons index schedule ih => exact ih (traced.step index)

theorem Traced.takeTurns (traced : Traced setup tasks state) (rounds : Nat) :
    Traced setup tasks (takeTurns setup rounds state) := by
  induction rounds generalizing state with
  | zero => exact traced
  | succ rounds ih =>
    unfold Loopback.takeTurns
    split
    · exact traced
    · exact ih (traced.runSchedule _)

theorem traced_finalState (setup : Setup) (schedule : List Nat) (tasks : List PacketTask) :
    Traced setup tasks (finalState setup schedule tasks) :=
  ((traced_initial setup tasks).runSchedule schedule).takeTurns _

/-- The replies of a job are reports of its nodes. -/
theorem Traced.answer_eq_ok (traced : Traced setup tasks state) {replies : List TaskReply}
    (came : state.answer = .ok replies) : ∀ reply ∈ replies, MayReport setup tasks reply.outcome := by
  have sent : ∀ frames : List (List UInt8),
      (∀ frame ∈ frames, ∃ reply : TaskReply, frame = reply.encode ∧ MayReport setup tasks reply.outcome) →
      ∃ owing : List TaskReply, frames = owing.map TaskReply.encode ∧
        ∀ reply ∈ owing, MayReport setup tasks reply.outcome := by
    intro frames
    induction frames with
    | nil => exact fun _ => ⟨[], rfl, by simp⟩
    | cons frame rest ih =>
      intro reports
      obtain ⟨reply, rfl, report⟩ := reports frame (.head _)
      obtain ⟨owing, rfl, others⟩ := ih fun frame member => reports frame (.tail _ member)
      refine ⟨reply :: owing, rfl, ?_⟩
      rintro other (_ | ⟨_, member⟩)
      · exact report
      · exact others other member
  obtain ⟨owing, frames, reports⟩ := sent state.replies traced.replies
  unfold State.answer at came
  split at came
  next => cases came
  next =>
    rw [frames] at came
    rwa [eq_of_mapM_decode came]

/-- A frame that is no reply is a fault of the distribution. -/
private theorem distribution_of_mapM_decode {frames : List (List UInt8)}
    (refused : frames.mapM TaskReply.decode = .error fault) : ∃ text, fault = .distribution text := by
  induction frames with
  | nil => cases refused
  | cons frame rest ih =>
    rw [List.mapM_cons] at refused
    cases first : TaskReply.decode frame with
    | ok reply =>
      cases others : rest.mapM TaskReply.decode with
      | ok replies => simp [first, others, bind, Except.bind, pure, Except.pure] at refused
      | error own =>
        simp only [first, others, bind, Except.bind] at refused
        cases refused
        exact ih others
    | error own =>
      simp only [first, bind, Except.bind] at refused
      cases refused
      unfold TaskReply.decode at first
      split at first
      next => cases first
      next refusal _ =>
        cases first
        exact refusal.fault_eq

/-- A job without replies failed as its nodes may. -/
theorem Traced.answer_eq_error (traced : Traced setup tasks state) (came : state.answer = .error fault) :
    NodeFault setup fault := by
  unfold State.answer at came
  split at came
  next own noted =>
    cases came
    obtain ⟨node, member, told⟩ := List.exists_of_findSome?_eq_some noted
    cases traced.nodes node member with
    | failed cause =>
      cases told
      exact cause
    | _ => cases told
  next =>
    obtain ⟨text, rfl⟩ := distribution_of_mapM_decode came
    exact .distribution text

end Loopback

namespace DistributedExecutor

variable {jobId alternatives : UInt64} {packets pending : List Packet}

/-- The results that are collected are those of completed replies. -/
theorem mem_collect {replies : List TaskReply} {results : List PacketResult}
    (came : collect jobId alternatives pending replies = .ok results) :
    ∀ result ∈ results, ∃ reply ∈ replies, reply.outcome = .completed result := by
  induction replies generalizing pending results with
  | nil =>
    cases pending with
    | nil =>
      cases came
      simp
    | cons packet more => cases came
  | cons reply rest ih =>
    rw [collect_cons] at came
    obtain ⟨⟨result, left⟩, accepted, came⟩ := bind_eq_ok_iff.mp came
    obtain ⟨later, others, same⟩ := bind_eq_ok_iff.mp came
    cases same
    rintro found (_ | ⟨_, member⟩)
    · exact ⟨reply, .head _, (acceptReply_eq_ok.mp accepted).2.1⟩
    · obtain ⟨other, there, completed⟩ := ih others found member
      exact ⟨other, .tail _ there, completed⟩

/-- What a job whose replies came may fail for: a zone that failed, the distribution, or a count of its
values that no word holds. -/
inductive ReplyFault : Fault → Prop where
  | computation (zone : UInt32) (text : String) : ReplyFault (.computation zone text)
  | distribution (text : String) : ReplyFault (.distribution text)
  | uncounted : ReplyFault .outOfBounds

theorem replyFault_of_acceptReply {reply : TaskReply} {refusal : Refusal}
    (refused : acceptReply jobId alternatives pending reply = .error refusal) :
    ReplyFault refusal.fault := by
  unfold acceptReply at refused
  split at refused
  · cases refused
    exact .distribution _
  · split at refused
    · cases refused
      exact .distribution _
    · split at refused
      · split at refused
        next => cases refused
        next =>
          cases refused
          exact .distribution _
        next uncounted =>
          cases refused
          rw [Refusal.fault, fits_eq_error uncounted]
          exact .uncounted
      · cases refused
        exact .computation _ _
      · cases refused
        exact .distribution _

theorem replyFault_of_collect {replies : List TaskReply} {refusal : Refusal}
    (refused : collect jobId alternatives pending replies = .error refusal) :
    ReplyFault refusal.fault := by
  induction replies generalizing pending with
  | nil =>
    cases pending with
    | nil => cases refused
    | cons packet more =>
      cases refused
      exact .distribution _
  | cons reply rest ih =>
    rw [collect_cons] at refused
    cases accepted : acceptReply jobId alternatives pending reply with
    | error own =>
      rw [accepted] at refused
      cases refused
      exact replyFault_of_acceptReply accepted
    | ok found =>
      cases others : collect jobId alternatives found.2 rest with
      | error own =>
        simp only [accepted, others, bind, Except.bind] at refused
        cases refused
        exact ih others
      | ok results =>
        simp only [accepted, others, bind, Except.bind] at refused
        cases refused

/-- Replies that are settled come to the results of those that are completed, or to a fault that replies
may give. -/
theorem settle_replies {replies : List TaskReply} :
    (∀ results, settle jobId alternatives packets (.ok replies) = .ok results →
      ∀ result ∈ results, ∃ reply ∈ replies, reply.outcome = .completed result) ∧
    ∀ fault, settle jobId alternatives packets (.ok replies) = .error fault → ReplyFault fault := by
  unfold settle
  dsimp only
  split
  next results collected =>
    refine ⟨fun found same => ?_, fun _ impossible => (by cases impossible)⟩
    cases same
    exact mem_collect collected
  next refusal refused =>
    refine ⟨fun _ impossible => (by cases impossible), fun fault same => ?_⟩
    cases same
    exact replyFault_of_collect refused

/-- What comes back from nodes is traced to the packets of the job, and nothing else makes it
fail but a fault that replies may give, or dimensions that no cache can have. -/
theorem submit_traced {nodes : Nat} {evaluator : Evaluator} {unreachable schedule : List Nat}
    {carrier : Transport (List Nat)}
    (created : Loopback.transport nodes evaluator unreachable schedule = .ok carrier) (alternatives : UInt64)
    (packets : List Packet) (inputs : JobInputs) (dispatch : Dispatch (List Nat)) :
    (∀ results, (submit carrier alternatives packets inputs dispatch).1 = .ok results →
        ∀ result ∈ results, LocalExecutor.MayCome evaluator inputs packets (.ok result)) ∧
      ∀ fault, (submit carrier alternatives packets inputs dispatch).1 = .error fault →
        ReplyFault fault ∨ inputs.cacheSpec.validate = .error fault := by
  let tasks : List PacketTask := packets.map fun packet => ⟨dispatch.nextJob, packet⟩
  let setup : Loopback.Setup :=
    ⟨nodes, evaluator, unreachable, JobBundle.encodeParts dispatch.nextJob alternatives inputs⟩
  have final := Loopback.traced_finalState setup schedule tasks
  have answered : (send carrier alternatives packets inputs dispatch).1 =
      (Loopback.finalState setup schedule tasks).answer :=
    Loopback.send_fst created alternatives packets inputs dispatch
  have listed : tasks.map PacketTask.packet = packets := by
    rw [List.map_map]
    exact List.map_id packets
  rw [submit_fst, answered]
  cases came : (Loopback.finalState setup schedule tasks).answer with
  | error own =>
    refine ⟨fun _ impossible => (by cases impossible), fun fault same => ?_⟩
    cases same
    cases final.answer_eq_error came with
    | distribution text => exact .inl (.distribution text)
    | cache decoded refused =>
      rw [JobBundle.eq_of_decode_encodeParts decoded] at refused
      exact .inr refused
  | ok replies =>
    constructor
    · intro results settled result member
      obtain ⟨reply, there, completed⟩ := settle_replies.1 results settled result member
      obtain ⟨job, decoded, outcome, may, same⟩ := final.answer_eq_ok came reply there
      rw [JobBundle.eq_of_decode_encodeParts decoded, listed] at may
      rw [completed] at same
      cases outcome with
      | ok ended =>
        cases same
        exact may
      | error fault => cases fault <;> cases same
    · intro fault settled
      exact .inl (settle_replies.2 fault settled)

end DistributedExecutor

end Accessibility
