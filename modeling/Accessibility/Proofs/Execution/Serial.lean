import Accessibility.Proofs.Execution.Failure
import Accessibility.Proofs.Execution.Local

/-! One worker, or one node, takes the packets of a job in their order, and ends with the
first that fails. A single worker notes that packet's fault (`submit_fault_inOrder`). A
single node answers the packets up to it, raises the flag, and drops the next
(`submit_one_node`). -/
namespace Accessibility

/-- The first packet of a job that fails. -/
structure FirstFailing (evaluator : Evaluator) (inputs : JobInputs) (packets : List Packet)
    (packet : Packet) (fault : Fault) : Prop where
  failed : packet.outcome evaluator inputs = .error fault
  inOrder : ∃ before behind, packets = before ++ packet :: behind ∧
    ∀ earlier ∈ before, ∃ result, earlier.outcome evaluator inputs = .ok result

namespace LocalExecutor

variable {evaluator : Evaluator} {inputs : JobInputs} {packets : List Packet}
  {state : State} {under : Nat → Option Ongoing} {held : List Nat}

/-- The positions of the packets that are under evaluation or wait, in this order. -/
def State.positions (state : State) : List Nat :=
  state.workers.flatMap Worker.positions ++ state.waiting.map Prod.snd

/-- All packets before a position have a result. -/
def Passed (evaluator : Evaluator) (inputs : JobInputs) (packets : List Packet) (place : Nat) : Prop :=
  ∀ position < place, ∀ packet : Packet, packets[position]? = some packet →
    ∃ result, packet.outcome evaluator inputs = .ok result

/-- A job that its only worker takes in order. -/
structure InOrder (evaluator : Evaluator) (inputs : JobInputs) (packets : List Packet) (state : State) :
    Prop where
  one : state.workers.length = 1
  /-- Up to the first fault, the packets from some place on are still to be finished. -/
  toDo : state.fault = none → ∃ place count, state.positions = List.range' place count ∧
    Passed evaluator inputs packets place
  fault : ∀ fault, state.fault = some fault → fault = .outOfBounds ∨
    ∃ packet, FirstFailing evaluator inputs packets packet fault

theorem inOrder_initial (evaluator : Evaluator) (inputs : JobInputs) (packets : List Packet)
    (cache : UtilityCache) : InOrder evaluator inputs packets (initial 1 packets cache) where
  one := rfl
  toDo _ := by
    refine ⟨0, packets.length, ?_, fun _ impossible => absurd impossible (Nat.not_lt_zero _)⟩
    simp [State.positions, initial, Worker.positions, List.zipIdx_map_snd]
  fault _ impossible := nomatch impossible

/-- The packet at a position is the first to fail if all before it have passed. -/
theorem firstFailing_of_passed {position : Nat} {packet : Packet} {fault : Fault}
    (passed : Passed evaluator inputs packets position) (there : packets[position]? = some packet)
    (failed : packet.outcome evaluator inputs = .error fault) :
    FirstFailing evaluator inputs packets packet fault := by
  obtain ⟨within, here⟩ := List.getElem?_eq_some_iff.mp there
  refine ⟨failed, packets.take position, packets.drop (position + 1), ?_, fun earlier member => ?_⟩
  · rw [← here, List.getElem_cons_drop, List.take_append_drop]
  · obtain ⟨place, before, rfl⟩ := List.mem_take_iff_getElem.mp member
    exact passed place (Nat.lt_min.mp before).1 _ (List.getElem?_eq_getElem (Nat.lt_min.mp before).2)

/-- A fault that comes behind another does not replace it, unless it is a breakdown. -/
theorem firstFault_some (noted fault : Fault) :
    firstFault (some noted) fault = noted ∨ firstFault (some noted) fault = .outOfBounds := by
  unfold firstFault
  split
  next broken => exact .inr broken
  next => exact .inl rfl

/-- The packet that comes next is reported, and then those behind it are still to be
finished. -/
theorem InOrder.report {position : Nat} {packet : Packet} (one : state.workers.length = 1)
    (there : packets[position]? = some packet)
    (toDo : state.fault = none → ∃ count, state.positions = List.range' (position + 1) count ∧
      Passed evaluator inputs packets position)
    (noted : ∀ fault, state.fault = some fault → fault = .outOfBounds ∨
      ∃ packet, FirstFailing evaluator inputs packets packet fault) :
    InOrder evaluator inputs packets (report state position (packet.outcome evaluator inputs)) := by
  cases came : packet.outcome evaluator inputs with
  | ok result =>
    refine ⟨one, fun clear => ?_, noted⟩
    obtain ⟨count, positions, passed⟩ := toDo clear
    refine ⟨position + 1, count, positions, fun place before other found => ?_⟩
    obtain earlier | rfl := Nat.lt_succ_iff_lt_or_eq.mp before
    · exact passed place earlier other found
    · rw [there] at found
      cases found
      exact ⟨result, came⟩
  | error fault =>
    refine ⟨one, fun impossible => (nomatch impossible), fun said same => ?_⟩
    simp only [LocalExecutor.report, Option.some.injEq] at same
    cases before : state.fault with
    | none =>
      obtain ⟨_, _, passed⟩ := toDo before
      rw [before] at same
      have latest : said = fault := by
        rw [← same]
        unfold firstFault
        split <;> rfl
      subst latest
      exact .inr ⟨packet, firstFailing_of_passed passed there came⟩
    | some first =>
      rw [before] at same
      obtain earlier | broken := firstFault_some first fault
      · exact noted said (by rw [before, ← same, earlier])
      · exact .inl (by rw [← same, broken])

/-- Positions in a row, the first of them taken off. -/
private theorem range'_eq_cons {place count position : Nat} {rest : List Nat}
    (same : position :: rest = List.range' place count) :
    position = place ∧ ∃ fewer, rest = List.range' (place + 1) fewer := by
  cases count with
  | zero => cases same
  | succ fewer =>
    rw [List.range'_succ] at same
    obtain ⟨first, others⟩ := List.cons_eq_cons.mp same
    exact ⟨first, fewer, others⟩

/-- What a worker evaluates is what its packet comes to. -/
theorem Sound.outcome_of_busy {worker position : Nat} {program : Evaluation PacketResult}
    (sound : Sound evaluator inputs packets held state under) (steady : evaluator.Steady inputs)
    (busy : state.workers[worker]? = some (.busy position program)) :
    ∃ packet : Packet, packets[position]? = some packet ∧
      (program.run state.cache).1 = packet.outcome evaluator inputs := by
  obtain ⟨packet, there, stands⟩ := sound.working worker position program busy
  exact ⟨packet, there, (run_stands steady sound.history stands).1⟩

/-- The only worker is done with its packet. -/
theorem InOrder.release {position : Nat} {program : Evaluation PacketResult} {packet : Packet}
    (inOrder : InOrder evaluator inputs packets state)
    (only : state.workers = [.busy position program]) (there : packets[position]? = some packet)
    (cache : UtilityCache) :
    InOrder evaluator inputs packets (LocalExecutor.report { state with workers := [.free], cache } position
      (packet.outcome evaluator inputs)) := by
  refine InOrder.report rfl there (fun clear => ?_) inOrder.fault
  obtain ⟨place, count, positions, passed⟩ := inOrder.toDo clear
  rw [State.positions, only] at positions
  obtain ⟨rfl, fewer, rest⟩ := range'_eq_cons positions
  exact ⟨fewer, rest, passed⟩

/-- Nothing but what is still to be finished, and the first fault, matters to the order. -/
theorem InOrder.of_positions_eq {after : State} (inOrder : InOrder evaluator inputs packets state)
    (one : after.workers.length = 1) (positions : after.positions = state.positions)
    (fault : after.fault = state.fault) : InOrder evaluator inputs packets after where
  one := one
  toDo clear := by
    rw [positions]
    exact inOrder.toDo (fault ▸ clear)
  fault noted same := inOrder.fault noted (fault ▸ same)

/-- A move that takes no packet out of turn keeps the order. -/
theorem InOrder.step (inOrder : InOrder evaluator inputs packets state)
    (sound : Sound evaluator inputs packets [] state under) (steady : evaluator.Steady inputs)
    {move : Move} (next : move.choice = 0) :
    InOrder evaluator inputs packets (step evaluator inputs move state) := by
  obtain ⟨only, alone⟩ := List.length_eq_one_iff.mp inOrder.one
  obtain ⟨number, choice⟩ := move
  cases next
  cases number with
  | succ number =>
    have missing : state.workers[number + 1]? = none := by simp [alone]
    simpa only [LocalExecutor.step, missing] using inOrder
  | zero =>
    have there : state.workers[0]? = some only := by simp [alone]
    cases only with
    | free =>
      cases waits : state.waiting with
      | nil => simpa only [LocalExecutor.step, there, waits, List.getElem?_nil] using inOrder
      | cons entry rest =>
        simp only [LocalExecutor.step, there, waits, List.getElem?_cons_zero]
        refine inOrder.of_positions_eq (by simp [alone]) ?_ rfl
        simp [State.positions, alone, waits, Worker.positions]
    | busy position program =>
      obtain ⟨packet, placed, came⟩ := sound.outcome_of_busy steady there
      cases program with
      | done outcome =>
        simp only [LocalExecutor.step, alone, List.getElem?_cons_zero, List.set_cons_zero]
        have came : outcome = packet.outcome evaluator inputs := came
        rw [came]
        exact inOrder.release alone placed state.cache
      | ask request next =>
        simp only [LocalExecutor.step, alone, List.getElem?_cons_zero, List.set_cons_zero]
        refine inOrder.of_positions_eq rfl ?_ rfl
        simp [State.positions, alone, Worker.positions]

/-- So does a schedule of such moves. -/
theorem InOrder.runSchedule (inOrder : InOrder evaluator inputs packets state)
    (sound : Sound evaluator inputs packets [] state under) (steady : evaluator.Steady inputs)
    {schedule : List Move} (next : ∀ move ∈ schedule, move.choice = 0) :
    InOrder evaluator inputs packets (runSchedule evaluator inputs schedule state) := by
  induction schedule generalizing state under with
  | nil => exact inOrder
  | cons move schedule ih =>
    obtain ⟨after, stepped⟩ := sound.step steady move
    exact ih (inOrder.step sound steady (next move (List.mem_cons_self ..))) stepped
      fun later member => next later (List.mem_cons_of_mem _ member)

/-- The worker finishes the packet it evaluates. -/
theorem InOrder.finishWorker (inOrder : InOrder evaluator inputs packets state)
    (sound : Sound evaluator inputs packets [] state under) (steady : evaluator.Steady inputs)
    (worker : Nat) : InOrder evaluator inputs packets (finishWorker worker state) := by
  unfold LocalExecutor.finishWorker
  split
  next position program busy =>
    obtain ⟨only, alone⟩ := List.length_eq_one_iff.mp inOrder.one
    obtain ⟨packet, placed, came⟩ := sound.outcome_of_busy steady busy
    simp only [came]
    rw [alone] at busy
    cases worker with
    | zero =>
      cases busy
      rw [alone, List.set_cons_zero]
      exact inOrder.release alone placed _
    | succ number => simp at busy
  next => exact inOrder

/-- Then the packets that wait are finished in their order. -/
theorem InOrder.finishPackets (inOrder : InOrder evaluator inputs packets state)
    (sound : Sound evaluator inputs packets [] state under) (steady : evaluator.Steady inputs)
    (idle : Idle state) :
    InOrder evaluator inputs packets (finishPackets evaluator inputs state.waiting state) := by
  obtain ⟨only, alone⟩ := List.length_eq_one_iff.mp inOrder.one
  have free : only.positions = [] := by
    cases only with
    | free => rfl
    | busy position program => exact absurd (by simp [alone]) (idle 0 position program)
  generalize waits : state.waiting = waiting
  induction waiting generalizing state under with
  | nil =>
    rw [LocalExecutor.finishPackets, ← waits]
    exact inOrder
  | cons entry rest ih =>
    obtain ⟨packet, position⟩ := entry
    simp only [LocalExecutor.finishPackets]
    split
    next noted =>
      exact ⟨inOrder.one, fun clear => absurd clear (Option.ne_none_iff_isSome.mpr noted), inOrder.fault⟩
    next =>
      obtain ⟨came, there, final, reported⟩ := sound.finishFirst steady idle waits
      refine ih ?_ reported (fun worker place program => ?_) ?_ ?_
      · rw [came]
        refine InOrder.report inOrder.one there (fun clear => ?_) inOrder.fault
        obtain ⟨place, count, positions, passed⟩ := inOrder.toDo clear
        simp only [State.positions, alone, waits, List.flatMap_cons, free, List.flatMap_nil, List.append_nil,
          List.map_cons, List.nil_append] at positions ⊢
        obtain ⟨rfl, fewer, others⟩ := range'_eq_cons positions
        exact ⟨fewer, others, passed⟩
      · rw [report_workers]
        exact idle worker place program
      · rw [report_workers]
        exact alone
      · exact report_waiting ..

/-- A job that is brought to its end has been taken in order. -/
theorem InOrder.finish (inOrder : InOrder evaluator inputs packets state)
    (sound : Sound evaluator inputs packets [] state under) (steady : evaluator.Steady inputs) :
    InOrder evaluator inputs packets (finish evaluator inputs state) := by
  obtain ⟨between, finished⟩ := sound.finishWorker steady 0
  have idle : Idle (LocalExecutor.finishWorker 0 state) := by
    intro other position program busy
    obtain ⟨different, before⟩ := finishWorker_busy busy
    have within := (List.getElem?_eq_some_iff.mp before).1
    rw [inOrder.one] at within
    exact different (Nat.lt_one_iff.mp within)
  rw [LocalExecutor.finish, inOrder.one]
  exact (inOrder.finishWorker sound steady 0).finishPackets finished steady idle

/-- One worker that takes the packets of a job in order ends it with the fault of the first
that fails, unless a packet breaks down. -/
theorem submit_fault_inOrder {cache : UtilityCache} {schedule : List Move} {fault : Fault}
    (steady : evaluator.Steady inputs) (served : evaluator.Served inputs cache)
    (next : ∀ move ∈ schedule, move.choice = 0)
    (failed : (submit 1 evaluator schedule inputs packets cache).1 = .error fault) :
    fault = .outOfBounds ∨ ∃ packet, FirstFailing evaluator inputs packets packet fault := by
  obtain ⟨under, history⟩ := served
  have begun := sound_initial evaluator inputs packets 1 history
  obtain ⟨between, ran⟩ := begun.runSchedule steady schedule
  have moved := (inOrder_initial evaluator inputs packets cache).runSchedule begun steady next
  have ended := moved.finish ran steady
  refine ended.fault fault ?_
  have answer : (LocalExecutor.finish evaluator inputs
      (LocalExecutor.runSchedule evaluator inputs schedule (initial 1 packets cache))).answer =
        .error fault := failed
  unfold State.answer at answer
  split at answer
  next noted same =>
    cases answer
    exact same
  next => cases answer

end LocalExecutor

namespace Loopback

variable {setup : Setup} {job : JobBundle} {front back : List PacketTask} {task : PacketTask}
  {state : State} {fault : Fault}

/-- The frames in which the first node answers tasks. -/
def frames (setup : Setup) (job : JobBundle) (tasks : List PacketTask) : List (List UInt8) :=
  tasks.map fun task => (owed setup job (0, task)).encode

/-- A node that works on a job, and is not about to send a failed reply. -/
def Node.Working : Node → Prop
  | .waiting _ => True
  | .holding .. => True
  | .evaluating .. => True
  | .alarming .. => True
  | .replying _ _ outcome => outcome.isFailed = false
  | _ => False

/-- A node that has sent its last reply. -/
def Node.Spent : Node → Prop
  | .waiting _ => True
  | .holding .. => True
  | .ended (.ok _) => True
  | _ => False

/-- How far the only node has come with tasks of which one is the first to fail. -/
inductive OneNode (setup : Setup) (job : JobBundle) (front : List PacketTask) (task : PacketTask)
    (back : List PacketTask) : State → Prop where
  | starting : OneNode setup job front task back ⟨front ++ task :: back, [], false, [.starting]⟩
  /-- It has answered some of the tasks in front, and the others are still to be taken. -/
  | working {node : Node} (done rest : List PacketTask) :
    done ++ node.held ++ rest = front ++ [task] →
    (∀ other ∈ done, (expected setup job other).isFailed = false) → node.Working →
    node.Sound setup job (front ++ task :: back) 0 →
    OneNode setup job front task back ⟨rest ++ back, frames setup job done, false, [node]⟩
  /-- It is about to report the failure. -/
  | warned {desk : Desk} : desk.Sound setup job →
    OneNode setup job front task back
      ⟨back, frames setup job front, true, [.replying desk task (expected setup job task)]⟩
  | spent {node : Node} (queue : List PacketTask) : node.Spent →
    OneNode setup job front task back ⟨queue, frames setup job (front ++ [task]), true, [node]⟩

/-- Tasks of a job of which one is the first to fail, and no breakdown. -/
structure FailsAt (setup : Setup) (job : JobBundle) (front : List PacketTask) (task : PacketTask)
    (fault : Fault) : Prop where
  own : ∀ other ∈ front ++ [task], other.jobId = job.jobId
  clean : ∀ other ∈ front, ∃ result, other.packet.outcome setup.evaluator job.inputs = .ok result
  failed : task.packet.outcome setup.evaluator job.inputs = .error fault
  whole : fault ≠ .outOfBounds

theorem FailsAt.isFailed (fails : FailsAt setup job front task fault) :
    (expected setup job task).isFailed = true := by
  simp only [expected, fails.failed]
  cases fault <;> rfl

theorem FailsAt.isFailed_front (fails : FailsAt setup job front task fault) {other : PacketTask}
    (member : other ∈ front) : (expected setup job other).isFailed = false := by
  obtain ⟨result, came⟩ := fails.clean other member
  simp only [expected, came, TaskOutcome.ofResult, TaskOutcome.isFailed]

/-- No task up to the first that fails is a breakdown. -/
theorem FailsAt.ne_outOfBounds (fails : FailsAt setup job front task fault) {other : PacketTask}
    (member : other ∈ front ++ [task]) :
    other.packet.outcome setup.evaluator job.inputs ≠ .error .outOfBounds := by
  obtain before | same := List.mem_append.mp member
  · obtain ⟨result, came⟩ := fails.clean other before
    rw [came]
    exact fun impossible => nomatch impossible
  · rw [List.mem_singleton.mp same, fails.failed]
    exact fun same => fails.whole (Except.error.inj same)

/-- The task that fails is the last one up to itself. -/
theorem FailsAt.eq_of_failed (fails : FailsAt setup job front task fault) {other : PacketTask}
    {done rest : List PacketTask} (order : done ++ [other] ++ rest = front ++ [task])
    (failed : (expected setup job other).isFailed = true) :
    done = front ∧ other = task ∧ rest = [] := by
  obtain rfl | ⟨between, last, rfl⟩ := List.eq_nil_or_concat' rest
  · rw [List.append_nil] at order
    obtain ⟨same, last⟩ := List.append_inj' order rfl
    exact ⟨same, List.singleton_inj.mp last, rfl⟩
  · rw [← List.append_assoc] at order
    obtain ⟨same, _⟩ := List.append_inj' order rfl
    have clean := fails.isFailed_front (same ▸ (by simp) : other ∈ front)
    rw [failed] at clean
    cases clean

section Step

variable (opens : JobBundle.decode setup.bundle = .ok job)
  (valid : job.inputs.cacheSpec.validate = .ok ())
  (steady : setup.evaluator.Steady job.inputs)

include opens valid steady in
/-- A node that works goes on to the next task, or to the report of the failure. -/
theorem OneNode.step_working (fails : FailsAt setup job front task fault) {node : Node}
    {done rest : List PacketTask} (order : done ++ node.held ++ rest = front ++ [task])
    (clean : ∀ other ∈ done, (expected setup job other).isFailed = false) (works : node.Working)
    (sound : node.Sound setup job (front ++ task :: back) 0) :
    OneNode setup job front task back
      (Loopback.step setup 0 ⟨rest ++ back, frames setup job done, false, [node]⟩) := by
  have among : ∀ held ∈ node.held, held ∈ front ++ task :: back := by
    intro held holds
    have member : held ∈ front ++ [task] := order ▸ (by simp [holds])
    simp only [List.mem_append, List.mem_cons, List.not_mem_nil, or_false] at member ⊢
    exact member.imp_right .inl
  have goesOn := sound.advance opens valid steady among ⟨rest ++ back, frames setup job done, false, [node]⟩
  simp only [Loopback.step, List.getElem?_cons_zero]
  cases node with
  | waiting desk =>
    cases rest with
    | nil =>
      have answered : task ∈ done := by
        simp only [Node.held, List.append_nil] at order
        simp [order]
      exact absurd fails.isFailed (Bool.eq_false_iff.mp (clean task answered))
    | cons next rest =>
      simp only [advance, List.cons_append] at goesOn ⊢
      exact .working done rest (by simpa [Node.held] using order) clean trivial goesOn
  | holding desk held =>
    have own : held.jobId = desk.job.jobId := by
      rw [sound.2.same]
      exact fails.own held (order ▸ (by simp [Node.held]))
    simp only [advance, own, Bool.false_eq_true, ↓reduceIte, ne_eq, not_true_eq_false] at goesOn ⊢
    exact .working done rest order clean trivial goesOn
  | evaluating desk held =>
    have member : held ∈ front ++ [task] := order ▸ (by simp [Node.held])
    obtain ⟨broken, _⟩ | ⟨cache, laid, goes⟩ := evaluateTask_cases steady sound.2.1 held
    · exact absurd broken (fails.ne_outOfBounds member)
    · simp only [advance, goes] at goesOn ⊢
      split at goesOn
      next failed =>
        rw [if_pos failed]
        exact .working done rest order clean trivial goesOn
      next passed =>
        rw [if_neg passed]
        exact .working done rest order clean (Bool.eq_false_iff.mpr passed) goesOn
  | alarming desk held outcome =>
    obtain ⟨_, laid, _, rfl, failed⟩ := sound
    obtain ⟨rfl, rfl, rfl⟩ := fails.eq_of_failed order failed
    exact .warned laid
  | replying desk held outcome =>
    obtain ⟨_, laid, _, rfl⟩ := sound
    have sent : replyTo 0 desk held (expected setup job held) = owed setup job (0, held) := by
      simp [replyTo, owed, laid.same]
    simp only [advance, sent] at goesOn ⊢
    have answered : frames setup job done ++ [(owed setup job (0, held)).encode] =
        frames setup job (done ++ [held]) := by
      simp [frames]
    rw [answered]
    refine .working (done ++ [held]) rest (by simpa [Node.held] using order) (fun other member => ?_)
      trivial goesOn
    obtain before | same := List.mem_append.mp member
    · exact clean other before
    · rw [List.mem_singleton.mp same]
      exact works
  | starting => exact works.elim
  | failing fault => exact works.elim
  | ended result => exact works.elim

include opens valid steady in
/-- A step of the only node. -/
theorem OneNode.step (up : 0 ∉ setup.unreachable) (fails : FailsAt setup job front task fault)
    (stands : OneNode setup job front task back state) (index : Nat) :
    OneNode setup job front task back (step setup index state) := by
  cases index with
  | succ index =>
    have missing : state.nodes[index + 1]? = none := by cases stands <;> rfl
    simpa only [Loopback.step, missing] using stands
  | zero =>
    cases stands with
    | starting =>
      have begun : OneNode setup job front task back ⟨front ++ [task] ++ back, [], false,
          [.waiting ⟨job, job.inputs.zones.zoneIds, .empty job.inputs.cacheSpec, 0⟩]⟩ :=
        .working [] (front ++ [task]) rfl (fun _ impossible => nomatch impossible) trivial
          ⟨up, rfl, rfl, setup.evaluator.served_empty job.inputs⟩
      rw [List.append_assoc, List.singleton_append] at begun
      simpa only [Loopback.step, List.getElem?_cons_zero, advance, opening_eq opens valid, up, ↓reduceIte,
        List.set_cons_zero] using begun
    | working done rest order clean works sound =>
      exact step_working opens valid steady fails order clean works sound
    | @warned desk laid =>
      have sent : replyTo 0 desk task (expected setup job task) = owed setup job (0, task) := by
        simp [replyTo, owed, laid.same]
      have answered : frames setup job front ++ [(owed setup job (0, task)).encode] =
          frames setup job (front ++ [task]) := by
        simp [frames]
      simp only [Loopback.step, List.getElem?_cons_zero, advance, List.set_cons_zero, sent, answered]
      exact .spent back trivial
    | @spent node queue spent =>
      simp only [Loopback.step, List.getElem?_cons_zero]
      cases node with
      | waiting desk =>
        cases queue with
        | nil => exact .spent [] trivial
        | cons next queue => exact .spent queue trivial
      | holding desk held => exact .spent queue trivial
      | ended result => exact .spent queue spent
      | starting => exact spent.elim
      | evaluating desk held => exact spent.elim
      | alarming desk held outcome => exact spent.elim
      | replying desk held outcome => exact spent.elim
      | failing fault => exact spent.elim

include opens valid steady in
theorem OneNode.runSchedule (up : 0 ∉ setup.unreachable) (fails : FailsAt setup job front task fault)
    (stands : OneNode setup job front task back state) (schedule : List Nat) :
    OneNode setup job front task back (runSchedule setup schedule state) := by
  induction schedule generalizing state with
  | nil => exact stands
  | cons index schedule ih => exact ih (stands.step opens valid steady up fails index)

include opens valid steady in
theorem OneNode.takeTurns (up : 0 ∉ setup.unreachable) (fails : FailsAt setup job front task fault)
    (stands : OneNode setup job front task back state) (rounds : Nat) :
    OneNode setup job front task back (takeTurns setup rounds state) := by
  induction rounds generalizing state with
  | zero => exact stands
  | succ rounds ih =>
    unfold Loopback.takeTurns
    split
    · exact stands
    · exact ih (stands.runSchedule opens valid steady up fails _)

include opens valid steady in
/-- In the end the only node has answered all tasks up to the first that fails. -/
theorem finalState_one_node (one : setup.nodes = 1) (up : 0 ∉ setup.unreachable)
    (fails : FailsAt setup job front task fault) (schedule : List Nat)
    (sendable : ∀ other ∈ front ++ [task], Wire.Sendable (expected setup job other)) :
    (finalState setup schedule (front ++ task :: back)).answer =
      .ok ((front ++ [task]).map fun other => owed setup job (0, other)) := by
  have begun : OneNode setup job front task back (initial setup (front ++ task :: back)) := by
    unfold initial
    rw [one]
    exact .starting
  have ended : OneNode setup job front task back (finalState setup schedule (front ++ task :: back)) :=
    (begun.runSchedule opens valid steady up fails schedule).takeTurns opens valid steady up fails _
  have finished := isFinished_finalState setup schedule (front ++ task :: back)
  generalize finalState setup schedule (front ++ task :: back) = final at ended finished ⊢
  cases ended with
  | starting => cases finished
  | @working node done rest order clean works sound =>
    obtain ⟨result, rfl⟩ := ended_of_isFinished finished (List.mem_singleton.mpr rfl)
    exact works.elim
  | warned laid => cases finished
  | @spent node queue spent =>
    obtain ⟨result, rfl⟩ := ended_of_isFinished finished (List.mem_singleton.mpr rfl)
    cases result with
    | error fault => exact spent.elim
    | ok count =>
      show (frames setup job (front ++ [task])).mapM TaskReply.decode = _
      have written : frames setup job (front ++ [task]) =
          ((front ++ [task]).map fun other => owed setup job (0, other)).map TaskReply.encode := by
        simp [frames]
      rw [written]
      refine mapM_decode_eq_ok fun reply member => ?_
      obtain ⟨other, listed, rfl⟩ := List.mem_map.mp member
      exact sendable other listed

end Step

end Loopback

namespace DistributedExecutor
open Loopback

variable {evaluator : Evaluator} {inputs : JobInputs} {unreachable schedule : List Nat}
  {carrier : Transport (List Nat)} {packets : List Packet} {packet : Packet} {fault : Fault}

/-- A packet as a task that the first node has taken. -/
def takenFirst (jobId : UInt64) (packet : Packet) : Nat × PacketTask := (0, ⟨jobId, packet⟩)

/-- The replies of one node to the packets up to the first that fails make the job report
it. -/
theorem settle_one_node {setup : Setup} {jobId : UInt64} {before behind : List Packet}
    (steady : setup.evaluator.Steady inputs)
    (distinct : ((before ++ packet :: behind).map Packet.id).Nodup)
    (ordered : ∀ other ∈ before ++ packet :: behind, other.first ≤ other.last)
    (deliverable : ∀ other ∈ before ++ packet :: behind,
      Wire.Sendable (TaskOutcome.ofResult (other.outcome setup.evaluator inputs)))
    (clean : ∀ other ∈ before, ∃ result, other.outcome setup.evaluator inputs = .ok result)
    (failed : packet.outcome setup.evaluator inputs = .error fault) :
    settle jobId setup.evaluator.width.toUInt64 (before ++ packet :: behind) (.ok
        (((before ++ [packet]).map (takenFirst jobId)).map
          (owed setup ⟨jobId, setup.evaluator.width.toUInt64, inputs⟩))) =
      .error (reported 0 packet fault) := by
  have accounted : (((before ++ [packet]).map (takenFirst jobId)).map (·.2.packet) ++ behind).Perm
      (before ++ packet :: behind) := by
    simp [takenFirst, Function.comp_def]
  have fitting : ∀ other ∈ before ++ packet :: behind, ∀ result,
      other.outcome setup.evaluator inputs = .ok result →
      fits setup.evaluator.width.toUInt64 other result = .ok true := fun other member result came =>
    fits_outcome steady (ordered other member) came (size_lt_of_sendable (deliverable other member) came)
  have taken : takenFirst jobId packet ∈ (before ++ [packet]).map (takenFirst jobId) :=
    List.mem_map_of_mem (List.mem_append_right before (List.mem_singleton.mpr rfl))
  simp only [settle, pendingOf_eq_self distinct]
  obtain ⟨results, every, _⟩ | ⟨entry, member, own, came, collected⟩ :=
    collect_owed setup ⟨jobId, setup.evaluator.width.toUInt64, inputs⟩ accounted distinct fitting
  · have listed := List.mem_map_of_mem
      (f := fun entry : Nat × PacketTask => entry.2.packet.outcome setup.evaluator inputs) taken
    rw [every, takenFirst, failed] at listed
    simp at listed
  · obtain ⟨other, among, rfl⟩ := List.mem_map.mp member
    obtain earlier | last := List.mem_append.mp among
    · obtain ⟨result, passed⟩ := clean other earlier
      cases passed.symm.trans came
    · cases List.mem_singleton.mp last
      cases failed.symm.trans came
      rw [collected]
      exact congrArg Except.error (fault_failure 0 packet fault)

/-- A job over one node reports the first packet that fails. -/
theorem submit_one_node (created : transport 1 evaluator unreachable schedule = .ok carrier)
    (up : 0 ∉ unreachable) (sendable : Wire.Sendable inputs)
    (valid : inputs.cacheSpec.validate = .ok ()) (steady : evaluator.Steady inputs)
    (distinct : (packets.map Packet.id).Nodup) (ordered : ∀ packet ∈ packets, packet.first ≤ packet.last)
    (deliverable : ∀ packet ∈ packets, Wire.Sendable (TaskOutcome.ofResult (packet.outcome evaluator inputs)))
    (first : FirstFailing evaluator inputs packets packet fault) (whole : fault ≠ .outOfBounds)
    (dispatch : Dispatch (List Nat)) :
    (submit carrier evaluator.width.toUInt64 packets inputs dispatch).1 =
      .error (reported 0 packet fault) := by
  obtain ⟨failed, before, behind, rfl, clean⟩ := first
  have opens := JobBundle.decode_encodeParts sendable dispatch.nextJob evaluator.width.toUInt64
  rw [submit_fst, send_fst created]
  generalize JobBundle.encodeParts dispatch.nextJob evaluator.width.toUInt64 inputs = bundle at opens ⊢
  have upTo : before.map (PacketTask.mk dispatch.nextJob) ++ [⟨dispatch.nextJob, packet⟩] =
      (before ++ [packet]).map (PacketTask.mk dispatch.nextJob) := by
    rw [List.map_append, List.map_singleton]
  have fails : FailsAt ⟨1, evaluator, unreachable, bundle⟩
      ⟨dispatch.nextJob, evaluator.width.toUInt64, inputs⟩
      (before.map (PacketTask.mk dispatch.nextJob)) ⟨dispatch.nextJob, packet⟩ fault := by
    refine ⟨fun other member => ?_, fun other member => ?_, failed, whole⟩
    · rw [upTo] at member
      obtain ⟨own, _, rfl⟩ := List.mem_map.mp member
      rfl
    · obtain ⟨own, listed, rfl⟩ := List.mem_map.mp member
      exact clean own listed
  have answer := @finalState_one_node _ _ _ (behind.map (PacketTask.mk dispatch.nextJob)) _ _ opens valid
    steady rfl up fails schedule fun other member => by
      rw [upTo] at member
      obtain ⟨own, listed, rfl⟩ := List.mem_map.mp member
      refine deliverable own ?_
      simp only [List.mem_append, List.mem_cons, List.not_mem_nil, or_false] at listed ⊢
      exact listed.imp_right .inl
  have settled := @settle_one_node inputs packet fault ⟨1, evaluator, unreachable, bundle⟩
    dispatch.nextJob before behind steady distinct ordered deliverable clean failed
  rw [upTo, List.map_map] at answer
  rw [List.map_map] at settled
  rw [List.map_append, List.map_cons, answer]
  exact settled

end DistributedExecutor

end Accessibility
