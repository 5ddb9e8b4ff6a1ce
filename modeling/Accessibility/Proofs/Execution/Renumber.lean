import Accessibility.Proofs.Execution.Loopback
import Accessibility.Proofs.Execution.Replies

/-! A job's number does not show in its answer. It takes up eight bytes of every frame whatever
it is, so a job with another number has messages of the same length, and its nodes take the same
steps (`step_numbered`). A distributed executor keeps nothing else from one job to the next; so
a job is answered alike whatever jobs went before it (`submit_eq_of_dispatch`). -/
namespace Accessibility

/-- The bundle of a job with another number. -/
def JobBundle.numbered (job : JobBundle) (id : UInt64) : JobBundle := { job with jobId := id }

/-- The task of a job with another number. -/
def PacketTask.numbered (task : PacketTask) (id : UInt64) : PacketTask := { task with jobId := id }

/-- The reply of a job with another number. -/
def TaskReply.numbered (reply : TaskReply) (id : UInt64) : TaskReply := { reply with jobId := id }

namespace Frame

/-- Messages of one length all come out of their frames, or all fail to in the same way. -/
theorem decode_wrap_uniform {ι α : Type} [Wire α] [Wire.Lawful α] (kind : FrameKind) (messages : ι → α)
    {size : Nat} (long : ∀ i, (Wire.encode (messages i)).length = size) :
    (∀ i, decode kind (wrap kind (Wire.encode (messages i))) = .ok (messages i)) ∨
      ∃ refusal, ∀ i, decode (α := α) kind (wrap kind (Wire.encode (messages i))) = .error refusal := by
  by_cases small : size < UInt64.size
  · exact .inl fun i => decode_wrap kind ((long i).symm ▸ small)
  · refine .inr ⟨.wrongSize kind (size % UInt64.size) (headerSize + size + footerSize), fun i => ?_⟩
    have large : UInt64.size ≤ (Wire.encode (messages i)).length := (long i).symm ▸ Nat.not_lt.mp small
    rw [decode, openBody_wrap_large kind large, long i]
    rfl

end Frame

theorem JobBundle.decode_numbered (job : JobBundle) :
    (∀ id, decode (job.numbered id).encode = .ok (job.numbered id)) ∨
      ∃ fault, ∀ id, decode (job.numbered id).encode = .error fault := by
  have long : ∀ id, (Wire.encode (job.numbered id)).length =
      8 + (Wire.encode job.alternatives ++ Wire.encode job.inputs).length := by
    intro id
    show (Wire.encode id ++ (Wire.encode job.alternatives ++ Wire.encode job.inputs)).length = _
    rw [List.length_append, Wire.length_encode_uint64]
  obtain read | ⟨refusal, refused⟩ := Frame.decode_wrap_uniform .jobBundle job.numbered long
  · exact .inl fun id => by rw [decode, encode, read id]
  · exact .inr ⟨refusal.fault, fun id => by rw [decode, encode, refused id]⟩

theorem TaskReply.decode_numbered (reply : TaskReply) :
    (∀ id, decode (reply.numbered id).encode = .ok (reply.numbered id)) ∨
      ∃ fault, ∀ id, decode (reply.numbered id).encode = .error fault := by
  have long : ∀ id, (Wire.encode (reply.numbered id)).length =
      8 + (Wire.encode reply.packetId ++ (Wire.encode reply.node ++ Wire.encode reply.outcome)).length := by
    intro id
    show (Wire.encode id ++ (Wire.encode reply.packetId ++
      (Wire.encode reply.node ++ Wire.encode reply.outcome))).length = _
    rw [List.length_append, Wire.length_encode_uint64]
  obtain read | ⟨refusal, refused⟩ := Frame.decode_wrap_uniform .taskReply reply.numbered long
  · exact .inl fun id => by rw [decode, encode, read id]
  · exact .inr ⟨refusal.fault, fun id => by rw [decode, encode, refused id]⟩

namespace Loopback

variable {setup : Setup} {job : JobBundle}

/-- What the nodes of a job are given when it has another number. -/
def Setup.carrying (setup : Setup) (job : JobBundle) (id : UInt64) : Setup :=
  { setup with bundle := (job.numbered id).encode }

def Desk.numbered (desk : Desk) (id : UInt64) : Desk := { desk with job := desk.job.numbered id }

/-- Where a node of a job with another number stands. -/
def Node.numbered (id : UInt64) : Node → Node
  | .starting => .starting
  | .waiting desk => .waiting (desk.numbered id)
  | .holding desk task => .holding (desk.numbered id) (task.numbered id)
  | .evaluating desk task => .evaluating (desk.numbered id) (task.numbered id)
  | .alarming desk task outcome => .alarming (desk.numbered id) (task.numbered id) outcome
  | .replying desk task outcome => .replying (desk.numbered id) (task.numbered id) outcome
  | .failing fault => .failing fault
  | .ended result => .ended result

/-- A job under way, with its replies not yet in frames. -/
structure Scene where
  queue : List PacketTask
  replies : List TaskReply
  abort : Bool
  nodes : List Node

/-- The job under way when it has the given number. -/
def Scene.state (scene : Scene) (id : UInt64) : State where
  queue := scene.queue.map (·.numbered id)
  replies := scene.replies.map fun reply => (reply.numbered id).encode
  abort := scene.abort
  nodes := scene.nodes.map (·.numbered id)

theorem opening_numbered (setup : Setup) (job : JobBundle) (index : Nat) :
    ∃ node : Node, ∀ id, opening (setup.carrying job id) index = node.numbered id := by
  by_cases down : index ∈ setup.unreachable
  · refine ⟨.failing (Refusal.unreachable index).fault, fun id => ?_⟩
    simp only [opening, Setup.carrying, down, ↓reduceIte]
    rfl
  · obtain read | ⟨fault, refused⟩ := job.decode_numbered
    · cases made : UtilityCache.create job.inputs.cacheSpec with
      | error fault =>
        refine ⟨.failing fault, fun id => ?_⟩
        have made' : UtilityCache.create (job.numbered id).inputs.cacheSpec = .error fault := made
        simp only [opening, Setup.carrying, down, ↓reduceIte, read id, made']
        rfl
      | ok cache =>
        refine ⟨.waiting ⟨job, job.inputs.zones.zoneIds, cache, 0⟩, fun id => ?_⟩
        have made' : UtilityCache.create (job.numbered id).inputs.cacheSpec = .ok cache := made
        simp only [opening, Setup.carrying, down, ↓reduceIte, read id, made']
        rfl
    · refine ⟨.failing fault, fun id => ?_⟩
      simp only [opening, Setup.carrying, down, ↓reduceIte, refused id]
      rfl

theorem evaluateTask_numbered (desk : Desk) (task : PacketTask) (id : UInt64) :
    evaluateTask (setup.carrying job id) (desk.numbered id) (task.numbered id) =
      (evaluateTask setup desk task).numbered id := by
  simp only [evaluateTask, Setup.carrying, Desk.numbered, JobBundle.numbered, PacketTask.numbered]
  split
  · rfl
  · split <;> rfl

/-- A node of a job with another number takes the same step. -/
theorem advance_numbered (index : Nat) (scene : Scene) (node : Node) :
    ∃ (scene' : Scene) (node' : Node), ∀ id, advance (setup.carrying job id) index (scene.state id)
      (node.numbered id) = (scene'.state id, node'.numbered id) := by
  cases node with
  | starting =>
    obtain ⟨node', opened⟩ := opening_numbered setup job index
    exact ⟨scene, node', fun id => congrArg (Prod.mk (scene.state id)) (opened id)⟩
  | waiting desk =>
    cases waits : scene.queue with
    | nil =>
      refine ⟨scene, .ended (.ok desk.answered), fun id => ?_⟩
      simp only [Node.numbered, advance, Scene.state, waits, List.map_nil]
      rfl
    | cons task rest =>
      refine ⟨{ scene with queue := rest }, .holding desk task, fun id => ?_⟩
      simp only [Node.numbered, advance, Scene.state, waits, List.map_cons]
  | holding desk task =>
    cases raised : scene.abort with
    | true =>
      refine ⟨scene, .ended (.ok desk.answered), fun id => ?_⟩
      simp only [Node.numbered, advance, Scene.state, raised, ↓reduceIte]
      rfl
    | false =>
      -- Task and bundle have the same number now, whatever they had in the scene.
      refine ⟨scene, .evaluating desk task, fun id => ?_⟩
      simp only [Node.numbered, advance, Scene.state, raised, Bool.false_eq_true, ↓reduceIte,
        Desk.numbered, PacketTask.numbered, JobBundle.numbered, ne_eq, not_true_eq_false]
  | evaluating desk task =>
    exact ⟨scene, evaluateTask setup desk task, fun id =>
      congrArg (Prod.mk (scene.state id)) (evaluateTask_numbered desk task id)⟩
  | alarming desk task outcome =>
    exact ⟨{ scene with abort := true }, .replying desk task outcome, fun _ => rfl⟩
  | replying desk task outcome =>
    refine ⟨{ scene with replies := scene.replies ++ [replyTo index desk task outcome] },
      .waiting { desk with answered := desk.answered + 1 }, fun id => ?_⟩
    simp only [Node.numbered, advance, Scene.state, List.map_append, List.map_singleton]
    rfl
  | failing fault => exact ⟨{ scene with abort := true }, .ended (.error fault), fun _ => rfl⟩
  | ended result => exact ⟨scene, .ended result, fun _ => rfl⟩

theorem step_numbered (index : Nat) (scene : Scene) :
    ∃ scene' : Scene, ∀ id, step (setup.carrying job id) index (scene.state id) = scene'.state id := by
  cases there : scene.nodes[index]? with
  | none =>
    refine ⟨scene, fun id => ?_⟩
    have missing : (scene.state id).nodes[index]? = none := by simp [Scene.state, there]
    rw [step, missing]
  | some node =>
    obtain ⟨moved, stand, advanced⟩ := @advance_numbered setup job index scene node
    refine ⟨{ moved with nodes := moved.nodes.set index stand }, fun id => ?_⟩
    have stands : (scene.state id).nodes[index]? = some (node.numbered id) := by simp [Scene.state, there]
    rw [step, stands]
    simp only [advanced id]
    simp only [Scene.state, List.map_set]

theorem runSchedule_numbered (schedule : List Nat) (scene : Scene) :
    ∃ scene' : Scene, ∀ id,
      runSchedule (setup.carrying job id) schedule (scene.state id) = scene'.state id := by
  induction schedule generalizing scene with
  | nil => exact ⟨scene, fun _ => rfl⟩
  | cons index schedule ih =>
    obtain ⟨moved, stepped⟩ := @step_numbered setup job index scene
    obtain ⟨last, ran⟩ := ih moved
    refine ⟨last, fun id => ?_⟩
    rw [← ran id, ← stepped id]
    rfl

theorem isFinished_numbered (scene : Scene) (id : UInt64) :
    (scene.state id).isFinished = scene.nodes.all Node.isEnded := by
  have ended : (Node.isEnded ∘ Node.numbered id) = Node.isEnded := by
    funext node
    cases node <;> rfl
  simp only [State.isFinished, Scene.state, List.all_map, ended]

theorem takeTurns_numbered (rounds : Nat) (scene : Scene) :
    ∃ scene' : Scene, ∀ id, takeTurns (setup.carrying job id) rounds (scene.state id) = scene'.state id := by
  induction rounds generalizing scene with
  | zero => exact ⟨scene, fun _ => rfl⟩
  | succ rounds ih =>
    by_cases finished : scene.nodes.all Node.isEnded = true
    · refine ⟨scene, fun id => ?_⟩
      rw [takeTurns, isFinished_numbered, if_pos finished]
    · obtain ⟨moved, ran⟩ := @runSchedule_numbered setup job (List.range setup.nodes) scene
      obtain ⟨last, turned⟩ := ih moved
      refine ⟨last, fun id => ?_⟩
      rw [takeTurns, isFinished_numbered, if_neg finished, ← turned id, ← ran id]
      rfl

/-- A job with another number ends in the same state, but for the number. -/
theorem finalState_numbered (schedule : List Nat) (tasks : List PacketTask) :
    ∃ scene : Scene, ∀ id, finalState (setup.carrying job id) schedule (tasks.map (·.numbered id)) =
      scene.state id := by
  let first : Scene := ⟨tasks, [], false, List.replicate setup.nodes .starting⟩
  have begun : ∀ id, initial (setup.carrying job id) (tasks.map (·.numbered id)) = first.state id := by
    intro id
    simp [initial, first, Scene.state, Setup.carrying, Node.numbered]
  obtain ⟨under, ran⟩ := @runSchedule_numbered setup job schedule first
  obtain ⟨last, turned⟩ := @takeTurns_numbered setup job (stepBound setup tasks) under
  refine ⟨last, fun id => ?_⟩
  have bound : stepBound (setup.carrying job id) (tasks.map (·.numbered id)) = stepBound setup tasks := by
    simp [stepBound, Setup.carrying]
  rw [finalState, begun, ran, bound, turned]

/-- The replies of a job all come out of their frames, or fail to in the same way, whatever its
number. -/
theorem mapM_decode_numbered (replies : List TaskReply) :
    (∀ id, (replies.map fun reply => (reply.numbered id).encode).mapM TaskReply.decode =
      .ok (replies.map (·.numbered id))) ∨
    ∃ fault, ∀ id, (replies.map fun reply => (reply.numbered id).encode).mapM TaskReply.decode =
      .error fault := by
  induction replies with
  | nil => exact .inl fun _ => rfl
  | cons reply rest ih =>
    obtain read | ⟨fault, refused⟩ := reply.decode_numbered
    · obtain all | ⟨fault, one⟩ := ih
      · refine .inl fun id => ?_
        simp only [List.map_cons, List.mapM_cons, read id, all id, bind, Except.bind, pure, Except.pure]
      · refine .inr ⟨fault, fun id => ?_⟩
        simp only [List.map_cons, List.mapM_cons, read id, one id, bind, Except.bind]
    · refine .inr ⟨fault, fun id => ?_⟩
      simp only [List.map_cons, List.mapM_cons, refused id, bind, Except.bind]

theorem answer_numbered (scene : Scene) :
    (∀ id, (scene.state id).answer = .ok (scene.replies.map (·.numbered id))) ∨
      ∃ fault, ∀ id, (scene.state id).answer = .error fault := by
  have same : ∀ id, (scene.state id).fault? = (scene.state 0).fault? := by
    intro id
    simp only [State.fault?, Scene.state, List.findSome?_map]
    congr 1
    funext node
    cases node <;> rfl
  cases failed : (scene.state 0).fault? with
  | some fault =>
    refine .inr ⟨fault, fun id => ?_⟩
    rw [State.answer, same, failed]
  | none =>
    have replied : ∀ id, (scene.state id).answer =
        (scene.replies.map fun reply => (reply.numbered id).encode).mapM TaskReply.decode := by
      intro id
      rw [State.answer, same, failed]
      rfl
    obtain all | ⟨fault, one⟩ := mapM_decode_numbered scene.replies
    · exact .inl fun id => (replied id).trans (all id)
    · exact .inr ⟨fault, fun id => (replied id).trans (one id)⟩

end Loopback

namespace DistributedExecutor
open Loopback

variable {alternatives : UInt64} {packets : List Packet} {inputs : JobInputs}

theorem collect_numbered (replies : List TaskReply) (pending : List Packet) (id other : UInt64) :
    collect id alternatives pending (replies.map (·.numbered id)) =
      collect other alternatives pending (replies.map (·.numbered other)) := by
  induction replies generalizing pending with
  | nil => cases pending <;> rfl
  | cons reply rest ih =>
    have accepted : acceptReply id alternatives pending (reply.numbered id) =
        acceptReply other alternatives pending (reply.numbered other) := by
      simp only [acceptReply, TaskReply.numbered, ne_eq, not_true_eq_false, ↓reduceIte]
      rfl
    simp only [List.map_cons, collect, accepted, ih]

/-- A job over nodes in the process is answered alike in every state of its executor. -/
theorem submit_eq_of_dispatch {nodes : Nat} {evaluator : Evaluator} {unreachable schedule : List Nat}
    {carrier : Transport (List Nat)}
    (created : transport nodes evaluator unreachable schedule = .ok carrier)
    (dispatch other : Dispatch (List Nat)) :
    (submit carrier alternatives packets inputs dispatch).1 =
      (submit carrier alternatives packets inputs other).1 := by
  let setup : Setup := ⟨nodes, evaluator, unreachable, []⟩
  let job : JobBundle := ⟨0, alternatives, inputs⟩
  obtain ⟨scene, ends⟩ := @finalState_numbered setup job schedule (packets.map (PacketTask.mk 0))
  have came : ∀ dispatch, (send carrier alternatives packets inputs dispatch).1 =
      (scene.state dispatch.nextJob).answer := by
    intro dispatch
    have tasks : packets.map (fun packet => ⟨dispatch.nextJob, packet⟩) =
        (packets.map (PacketTask.mk 0)).map (·.numbered dispatch.nextJob) := by
      simp [PacketTask.numbered, Function.comp_def]
    rw [send_fst created, ← ends, tasks, JobBundle.encodeParts_eq]
    rfl
  rw [submit_fst, submit_fst, came, came]
  obtain all | ⟨fault, one⟩ := answer_numbered scene
  · rw [all, all, settle, settle, collect_numbered _ _ dispatch.nextJob other.nextJob]
  · rw [one, one]
    rfl

end DistributedExecutor

end Accessibility
