import Mathlib.Data.Fintype.EquivFin
import Mathlib.Logic.Equiv.Fin.Basic
import Accessibility.Proofs.Execution.Loopback.Ending

/-! Nodes over one queue lose nothing and answer nothing twice. What a job answers can
be read off the account that holds when all nodes have stopped: the replies are those of
distinct tasks, and unless one of them reports a failure of all tasks
(`run_job_answers`). -/
namespace Accessibility.Loopback

variable {setup : Setup} {job : JobBundle} {tasks : List PacketTask} {index : Nat}
  {state : State} {node : Node}

section Over

variable {answered : List (Nat × PacketTask)} {dropped : List PacketTask}
  (sound : Sound setup job tasks state answered dropped) (finished : state.isFinished = true)

theorem ended_of_isFinished {state : State} (finished : state.isFinished = true) {node : Node}
    (member : node ∈ state.nodes) : ∃ result, node = .ended result := by
  have stopped := List.all_eq_true.mp finished node member
  cases node with
  | ended result => exact ⟨result, rfl⟩
  | _ => cases stopped

/-- The fault of a finished job is that of its first failed node. -/
theorem fault?_eq_none_iff : state.fault? = none ↔
    ∀ fault, Node.ended (.error fault) ∉ state.nodes := by
  unfold State.fault?
  rw [List.findSome?_eq_none_iff]
  constructor
  · intro none fault member
    cases none _ member
  · intro none node member
    split
    next fault => exact absurd member (none fault)
    next => rfl

include finished in
theorem not_failed_of_fault?_eq_none (calm : state.fault? = none) :
    ∀ node ∈ state.nodes, ¬ node.Failed := by
  intro node member failed
  obtain ⟨result, rfl⟩ := ended_of_isFinished finished member
  cases result with
  | ok count => exact failed
  | error fault => exact fault?_eq_none_iff.mp calm fault member

include sound finished in
/-- In the end a task is answered, or dropped, or still queued. -/
theorem Sound.perm_tasks : (answered.map Prod.snd ++ (state.queue ++ dropped)).Perm tasks := by
  have idle : state.nodes.flatMap Node.held = [] := by
    refine List.flatMap_eq_nil_iff.mpr fun node member => ?_
    obtain ⟨result, rfl⟩ := ended_of_isFinished finished member
    rfl
  have account := sound.account
  rw [idle, List.append_nil] at account
  refine List.Perm.trans ?_ account
  rw [← List.append_assoc]
  exact List.perm_append_comm.append_right _

include sound finished in
/-- Unless a node failed or a failed reply was sent, everything is answered. -/
theorem Sound.complete (some_node : 0 < setup.nodes) (calm : ∀ node ∈ state.nodes, ¬ node.Failed)
    (clean : ∀ entry ∈ answered, (expected setup job entry.2).isFailed = false) :
    state.queue = [] ∧ dropped = [] := by
  have lowered : ¬ state.abort = true := by
    intro raised
    obtain ⟨node, member, warns⟩ | ⟨entry, member, failed⟩ := sound.abort raised
    · obtain ⟨result, rfl⟩ := ended_of_isFinished finished member
      cases result with
      | ok count => exact warns
      | error fault => exact calm _ member warns
    · rw [clean entry member] at failed
      cases failed
  constructor
  · have within : 0 < state.nodes.length := sound.size ▸ some_node
    have member := List.getElem_mem within
    obtain ⟨result, ended⟩ := ended_of_isFinished finished member
    rw [ended] at member
    cases result with
    | ok count => exact (sound.ends count member).resolve_right lowered
    | error fault => exact (calm _ member trivial).elim
  · refine Classical.byContradiction fun some_dropped => ?_
    obtain raised | ⟨node, member, failed⟩ := sound.dropped some_dropped
    · exact lowered raised
    · exact calm node member failed

include finished in
theorem sum_answeredPerNode (calm : ∀ node ∈ state.nodes, ¬ node.Failed) :
    state.answeredPerNode = state.nodes.map Node.tally := by
  refine List.map_congr_left fun node member => ?_
  obtain ⟨result, rfl⟩ := ended_of_isFinished finished member
  cases result with
  | ok count => rfl
  | error fault => exact (calm _ member trivial).elim

/-- Frames are read as the replies that were written. -/
theorem eq_of_mapM_decode {owing replies : List TaskReply}
    (read : (owing.map TaskReply.encode).mapM TaskReply.decode = .ok replies) : replies = owing := by
  induction owing generalizing replies with
  | nil =>
    cases read
    rfl
  | cons reply rest ih =>
    rw [List.map_cons, List.mapM_cons] at read
    cases first : TaskReply.decode reply.encode with
    | error fault => simp [first, bind, Except.bind] at read
    | ok found =>
      cases others : (rest.map TaskReply.encode).mapM TaskReply.decode with
      | error fault => simp [first, others, bind, Except.bind] at read
      | ok later =>
        simp only [first, others, bind, Except.bind, pure, Except.pure, Except.ok.injEq] at read
        rw [← read, ih others, TaskReply.eq_of_decode_encode first]

include sound in
/-- A job that is answered has no failed node, and the replies that its nodes owe. -/
theorem Sound.answer {replies : List TaskReply} (came : state.answer = .ok replies) :
    state.fault? = none ∧ replies = answered.map (owed setup job) := by
  cases calm : state.fault? with
  | some fault => simp [State.answer, calm] at came
  | none =>
    refine ⟨rfl, eq_of_mapM_decode ?_⟩
    simpa [State.answer, calm, sound.replies, Function.comp_def] using came

end Over

/-- Tasks of the job, none of which runs off a table. -/
structure Orderly (setup : Setup) (job : JobBundle) (tasks : List PacketTask) : Prop where
  own : ∀ task ∈ tasks, task.jobId = job.jobId
  whole : ∀ task ∈ tasks, task.packet.outcome setup.evaluator job.inputs ≠ .error .outOfBounds

section Orderly

variable {answered : List (Nat × PacketTask)} {dropped : List PacketTask} {fault : Fault}

/-- On orderly tasks a node fails only for being unreachable. -/
theorem Orderly.eq_of_failing (orderly : Orderly setup job tasks)
    (failing : Failing setup job tasks index fault) :
    index ∈ setup.unreachable ∧ fault = (Refusal.unreachable index).fault := by
  cases failing with
  | unreachable down => exact ⟨down, rfl⟩
  | foreignTask task _ member foreign => exact absurd (orderly.own task member) foreign
  | brokenDown task _ member broken => exact absurd broken (orderly.whole task member)

theorem Sound.fault?_eq_none (sound : Sound setup job tasks state answered dropped)
    (orderly : Orderly setup job tasks) (up : ∀ index < setup.nodes, index ∉ setup.unreachable) :
    state.fault? = none := by
  refine fault?_eq_none_iff.mpr fun fault member => ?_
  obtain ⟨index, there⟩ := List.mem_iff_getElem?.mp member
  have within := (List.getElem?_eq_some_iff.mp there).1
  exact up index (sound.size ▸ within) (orderly.eq_of_failing (sound.nodes index _ there)).1

/-- The unreachable node with the lowest number is the one that is reported. -/
theorem Sound.fault?_eq_unreachable (sound : Sound setup job tasks state answered dropped)
    (finished : state.isFinished = true) (orderly : Orderly setup job tasks)
    (within : index < setup.nodes) (down : index ∈ setup.unreachable)
    (lowest : ∀ lower < index, lower ∉ setup.unreachable) :
    state.fault? = some (Refusal.unreachable index).fault := by
  have there := List.getElem?_eq_getElem (sound.size.symm ▸ within : index < state.nodes.length)
  obtain ⟨result, ended⟩ := ended_of_isFinished finished (List.mem_of_getElem? there)
  rw [ended] at there
  have stands := sound.nodes index _ there
  cases result with
  | ok count => exact absurd down stands
  | error fault =>
    obtain ⟨_, rfl⟩ := orderly.eq_of_failing stands
    obtain ⟨short, here⟩ := List.getElem?_eq_some_iff.mp there
    refine List.findSome?_eq_some_iff.mpr ⟨state.nodes.take index, .ended (.error _),
      state.nodes.drop (index + 1), ?_, rfl, fun node member => ?_⟩
    · rw [← here, List.getElem_cons_drop, List.take_append_drop]
    · obtain ⟨lower, below, rfl⟩ := List.mem_take_iff_getElem.mp member
      have lower_short : lower < state.nodes.length := (Nat.lt_min.mp below).2
      split
      next fault ended =>
        have stands := sound.nodes lower _ (List.getElem?_eq_getElem lower_short)
        rw [ended] at stands
        exact absurd (orderly.eq_of_failing stands).1 (lowest lower (Nat.lt_min.mp below).1)
      next => rfl

/-- Frames that are not too long for their headers can be read. -/
theorem mapM_decode_eq_ok {owing : List TaskReply}
    (sendable : ∀ reply ∈ owing, Wire.Sendable reply.outcome) :
    (owing.map TaskReply.encode).mapM TaskReply.decode = .ok owing := by
  induction owing with
  | nil => rfl
  | cons reply rest ih =>
    have later := ih fun other member => sendable other (List.mem_cons_of_mem _ member)
    rw [List.map_cons, List.mapM_cons, TaskReply.decode_encode (sendable reply List.mem_cons_self), later]
    rfl

/-- A job without a failed node is answered. -/
theorem Sound.answer_eq_ok (sound : Sound setup job tasks state answered dropped)
    (calm : state.fault? = none)
    (sendable : ∀ task ∈ tasks, Wire.Sendable (expected setup job task)) :
    state.answer = .ok (answered.map (owed setup job)) := by
  have frames : state.replies = (answered.map (owed setup job)).map TaskReply.encode := by
    rw [sound.replies, List.map_map]
    rfl
  simp only [State.answer, calm, frames]
  refine mapM_decode_eq_ok fun reply member => ?_
  obtain ⟨entry, answers, rfl⟩ := List.mem_map.mp member
  refine sendable entry.2 (sound.account.subset ?_)
  simp [List.mem_map_of_mem (f := Prod.snd) answers]

end Orderly

/-- The positions of a list's items in another order of the list. -/
private theorem exists_equiv_of_perm {α : Type} {items others : List α} (reordered : items.Perm others) :
    ∃ place : Fin items.length ≃ Fin others.length, ∀ i, others.get (place i) = items.get i := by
  induction reordered with
  | nil => exact ⟨.refl _, fun _ => rfl⟩
  | cons item _ ih =>
    obtain ⟨place, same⟩ := ih
    refine ⟨(finSuccEquiv _).trans (place.optionCongr.trans (finSuccEquiv _).symm), fun i => ?_⟩
    refine Fin.cases ?_ (fun i => ?_) i
    · simp
    · simpa using same i
  | swap first second rest =>
    refine ⟨Equiv.swap (⟨0, by simp⟩ : Fin (rest.length + 2)) ⟨1, by simp⟩, fun i => ?_⟩
    obtain ⟨i, within⟩ := i
    match i with
    | 0 => simp
    | 1 => simp
    | i + 2 =>
      rw [Equiv.swap_apply_of_ne_of_ne (by simp) (by simp)]
      rfl
  | trans _ _ ih ih' =>
    obtain ⟨place, same⟩ := ih
    obtain ⟨place', same'⟩ := ih'
    exact ⟨place.trans place', fun i => (same' (place i)).trans (same i)⟩

section Transport

variable {evaluator : Evaluator} {nodes : Nat} {unreachable schedule : List Nat} {carrier : Transport (List Nat)}

theorem some_node_of_transport (created : transport nodes evaluator unreachable schedule = .ok carrier) :
    0 < nodes := by
  unfold transport at created
  split at created
  next => cases created
  next some_node => exact Nat.pos_of_ne_zero some_node

/-- What a transport makes of a job is the answer of the state in which its nodes end. -/
theorem runJob_eq (created : transport nodes evaluator unreachable schedule = .ok carrier)
    (bundle : List UInt8) (tasks : List PacketTask) (last : List Nat) :
    carrier.runJob bundle tasks last =
      ((finalState ⟨nodes, evaluator, unreachable, bundle⟩ schedule tasks).answer,
        (finalState ⟨nodes, evaluator, unreachable, bundle⟩ schedule tasks).answeredPerNode) := by
  unfold transport at created
  split at created
  next => cases created
  next => cases created; rfl

/-- What comes back for packets that are sent to nodes. -/
theorem send_fst (created : transport nodes evaluator unreachable schedule = .ok carrier)
    (alternatives : UInt64) (packets : List Packet) (inputs : JobInputs) (dispatch : Dispatch (List Nat)) :
    (DistributedExecutor.send carrier alternatives packets inputs dispatch).1 =
      (finalState ⟨nodes, evaluator, unreachable, JobBundle.encodeParts dispatch.nextJob alternatives inputs⟩
        schedule (packets.map (⟨dispatch.nextJob, ·⟩))).answer := by
  rw [DistributedExecutor.send, runJob_eq created]

end Transport

/-- A reply tells what the packet of a task came to. -/
structure Answers (evaluator : Evaluator) (job : JobBundle) (task : PacketTask) (reply : TaskReply) :
    Prop where
  jobId : reply.jobId = job.jobId
  packetId : reply.packetId = task.packet.id
  outcome : reply.outcome = .ofResult (task.packet.outcome evaluator job.inputs)

/-- Whatever the tasks of a job are and however its nodes take their turns: if there are
replies, each answers a task of its own, and the nodes have counted them. Unless one of
them reports a failure, every task is answered, and all were tasks of this job. -/
theorem run_job_answers {evaluator : Evaluator} {nodes : Nat} {unreachable schedule last : List Nat}
    {bundle : List UInt8} {replies : List TaskReply} {carrier : Transport (List Nat)}
    (created : transport nodes evaluator unreachable schedule = .ok carrier)
    (opens : JobBundle.decode bundle = .ok job) (valid : job.inputs.cacheSpec.validate = .ok ())
    (steady : evaluator.Steady job.inputs)
    (came : (carrier.runJob bundle tasks last).1 = .ok replies) :
    ∃ place : Fin replies.length → Fin tasks.length, Function.Injective place ∧
      (∀ i, Answers evaluator job (tasks.get (place i)) (replies.get i)) ∧
      (carrier.runJob bundle tasks last).2.sum = replies.length ∧
      ((∀ reply ∈ replies, reply.outcome.isFailed = false) →
        Function.Bijective place ∧ ∀ task ∈ tasks, task.jobId = job.jobId) := by
  have some_node := some_node_of_transport created
  rw [runJob_eq created] at came ⊢
  have finished := isFinished_finalState ⟨nodes, evaluator, unreachable, bundle⟩ schedule tasks
  have accounted : Accounted ⟨nodes, evaluator, unreachable, bundle⟩ job tasks _ :=
    finalState_spec opens valid steady schedule tasks
  obtain ⟨answered, dropped, sound⟩ := accounted
  obtain ⟨calm, rfl⟩ := sound.answer came
  have calm := not_failed_of_fault?_eq_none finished calm
  have shared := sound.perm_tasks finished
  obtain ⟨place, same⟩ := exists_equiv_of_perm shared
  have long (left : List PacketTask) :
      (answered.map (owed ⟨nodes, evaluator, unreachable, bundle⟩ job)).length ≤
        (answered.map Prod.snd ++ (left ++ dropped)).length := by
    simp
  have injective : Function.Injective fun i => place (Fin.castLE (long _) i) :=
    place.injective.comp (Fin.castLE_injective (long _))
  refine ⟨fun i => place (Fin.castLE (long _) i), injective, fun i => ?_, ?_, fun clean => ?_⟩
  · have within : i.val < answered.length := by simpa using i.isLt
    have mine : tasks.get (place (Fin.castLE (long _) i)) = answered[i.val].2 := by
      rw [same]
      simp [List.getElem_append_left, within]
    rw [mine]
    refine ⟨?_, ?_, ?_⟩ <;> simp [owed, expected]
  · rw [sum_answeredPerNode finished calm, sound.tally calm, List.length_map]
  · obtain ⟨queue, none_dropped⟩ := sound.complete finished some_node calm
      fun entry member => clean _ (List.mem_map_of_mem member)
    rw [queue, none_dropped, List.append_nil, List.append_nil] at shared
    refine ⟨(Fintype.bijective_iff_injective_and_card _).mpr ⟨injective, ?_⟩, fun task member => ?_⟩
    · simpa using shared.length_eq
    · obtain ⟨entry, answers, rfl⟩ := List.mem_map.mp (shared.symm.subset member)
      exact (sound.own entry answers).2

/-- An evaluator that gives every zone a zero. -/
def flat : Evaluator := .ofFunction ["a"] fun _ _ => .ok [.zero]

theorem flat_steady (inputs : JobInputs) : flat.Steady inputs :=
  Evaluator.steady_of_quiet fun _ => ⟨_, rfl⟩

/-- Inputs with two zones. -/
def pairInputs : JobInputs where
  zones := ⟨[], #[⟨1, .zero, .zero, ⟨0, 0⟩, []⟩, ⟨3, .zero, .zero, ⟨0, 0⟩, []⟩]⟩
  sizeTerms := ⟨[], 3, #[], #[]⟩
  constants := ⟨[], #[]⟩
  cacheSpec := ⟨3, 0, 1, 1⟩

theorem sendable_pairInputs : Wire.Sendable pairInputs := by
  unfold Wire.Sendable
  decide +kernel

/-- A task for each of the zones. -/
def pairTasks : List PacketTask := [⟨7, ⟨1, 0, 0⟩⟩, ⟨7, ⟨2, 1, 1⟩⟩]

theorem outcome_pairTasks : ∀ task ∈ pairTasks, task.packet.outcome flat pairInputs =
    .ok ⟨task.packet.id, task.packet.first, task.packet.last, 1, #[.zero]⟩ := by
  decide +kernel

theorem sendable_pairTasks : ∀ task ∈ pairTasks,
    Wire.Sendable (TaskOutcome.ofResult (task.packet.outcome flat pairInputs)) := by
  unfold Wire.Sendable
  decide +kernel

theorem run_job_answers_pair :
    ∃ carrier, transport 2 flat [] [1, 0, 1, 1, 0, 1] = .ok carrier ∧
      ∃ replies, (carrier.runJob (JobBundle.encodeParts 7 1 pairInputs) pairTasks []).1 = .ok replies ∧
        replies.length = 2 := by
  have opens := JobBundle.decode_encodeParts sendable_pairInputs 7 1
  have valid : pairInputs.cacheSpec.validate = .ok () := rfl
  have steady := flat_steady pairInputs
  obtain ⟨carrier, created⟩ : ∃ carrier, transport 2 flat [] [1, 0, 1, 1, 0, 1] = .ok carrier := ⟨_, rfl⟩
  refine ⟨carrier, created, ?_⟩
  generalize JobBundle.encodeParts 7 1 pairInputs = bundle at opens ⊢
  obtain ⟨answered, dropped, sound⟩ : Accounted ⟨2, flat, [], bundle⟩ ⟨7, 1, pairInputs⟩ pairTasks _ :=
    finalState_spec opens valid steady [1, 0, 1, 1, 0, 1] pairTasks
  have orderly : Orderly ⟨2, flat, [], bundle⟩ ⟨7, 1, pairInputs⟩ pairTasks :=
    ⟨by simp [pairTasks], fun task member => by simp [outcome_pairTasks task member]⟩
  have answer := sound.answer_eq_ok (sound.fault?_eq_none orderly (by simp)) sendable_pairTasks
  have came : (carrier.runJob bundle pairTasks []).1 =
      (finalState ⟨2, flat, [], bundle⟩ [1, 0, 1, 1, 0, 1] pairTasks).answer := by
    rw [runJob_eq created]
  rw [answer] at came
  refine ⟨_, came, ?_⟩
  obtain ⟨place, _, answers, _, every⟩ := run_job_answers created opens valid steady came
  obtain ⟨bijective, _⟩ := every fun reply member => by
    obtain ⟨i, rfl⟩ := List.mem_iff_get.mp member
    rw [(answers i).outcome, outcome_pairTasks _ (List.get_mem ..)]
    rfl
  simpa [pairTasks] using Fintype.card_of_bijective bijective

end Accessibility.Loopback
