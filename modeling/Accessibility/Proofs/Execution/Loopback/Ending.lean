import Accessibility.Proofs.Execution.Loopback.Account

/-! However a job begins, its nodes can be brought to their end. A step of a node that
has not stopped leaves fewer steps to be made, so letting all nodes take turns stops them
all (`isFinished_finalState`), and the account is kept up to that point
(`finalState_spec`). -/
namespace Accessibility.Loopback

variable {setup : Setup} {job : JobBundle} {tasks : List PacketTask} {index : Nat}
  {state : State} {node : Node}

/-- Steps that a node can still take before it turns to the queue or stops. -/
def Node.stepsLeft : Node → Nat
  | .starting => 2
  | .waiting _ => 1
  | .holding .. => 5
  | .evaluating .. => 4
  | .alarming .. => 3
  | .replying .. => 2
  | .failing _ => 1
  | .ended _ => 0

/-- A bound on the steps that all nodes together can still take. -/
def State.stepsLeft (state : State) : Nat :=
  5 * state.queue.length + (state.nodes.map Node.stepsLeft).sum

theorem stepsLeft_evaluateTask (setup : Setup) (desk : Desk) (task : PacketTask) :
    (evaluateTask setup desk task).stepsLeft < 4 := by
  unfold evaluateTask
  simp only
  split
  · simp [Node.stepsLeft]
  · split <;> simp [Node.stepsLeft]

/-- A step leaves the other nodes alone. -/
theorem advance_nodes (setup : Setup) (index : Nat) (state : State) (node : Node) :
    (advance setup index state node).1.nodes = state.nodes := by
  unfold advance
  repeat' split
  all_goals rfl

/-- A node that has not stopped comes closer to its end. -/
theorem stepsLeft_advance (setup : Setup) (index : Nat) (state : State)
    (running : node.isEnded = false) :
    5 * (advance setup index state node).1.queue.length + (advance setup index state node).2.stepsLeft <
      5 * state.queue.length + node.stepsLeft := by
  cases node with
  | starting =>
    simp only [advance, opening]
    repeat' split
    all_goals simp [Node.stepsLeft]
  | waiting desk =>
    cases queued : state.queue with
    | nil => simp [advance, queued, Node.stepsLeft]
    | cons task rest =>
      simp only [advance, queued, List.length_cons, Node.stepsLeft]
      omega
  | holding desk task =>
    simp only [advance]
    repeat' split
    all_goals simp [Node.stepsLeft]
  | evaluating desk task => simpa [advance, Node.stepsLeft] using stepsLeft_evaluateTask setup desk task
  | alarming desk task outcome => simp [advance, Node.stepsLeft]
  | replying desk task outcome => simp [advance, Node.stepsLeft]
  | failing fault => simp [advance, Node.stepsLeft]
  | ended result => cases running

/-- A step brings the nodes closer to their end, or it changes nothing since its node has
stopped. -/
theorem step_cases (setup : Setup) (index : Nat) (state : State) :
    (step setup index state = state ∧
        ∀ node, state.nodes[index]? = some node → node.isEnded = true) ∨
      (step setup index state).stepsLeft < state.stepsLeft := by
  unfold step
  split
  next none =>
    refine .inl ⟨rfl, fun node there => ?_⟩
    rw [none] at there
    cases there
  next node stood =>
    cases running : node.isEnded with
    | true =>
      obtain ⟨result, rfl⟩ : ∃ result, node = .ended result := by
        cases node with
        | ended result => exact ⟨result, rfl⟩
        | _ => cases running
      refine .inl ⟨?_, fun other there => ?_⟩
      · obtain ⟨within, there⟩ := List.getElem?_eq_some_iff.mp stood
        simp only [advance, ← there, List.set_getElem_self within]
      · rw [stood] at there
        cases there
        rfl
    | false =>
      obtain ⟨front, back, before, set⟩ := split_at stood
      have closer := stepsLeft_advance setup index state running
      refine .inr ?_
      simp only [State.stepsLeft, advance_nodes, set]
      rw [before]
      simp only [List.map_append, List.map_cons, List.sum_append, List.sum_cons]
      omega

theorem length_nodes_step (setup : Setup) (index : Nat) (state : State) :
    (step setup index state).nodes.length = state.nodes.length := by
  unfold step
  split
  · rfl
  · rw [List.length_set, advance_nodes]

theorem length_nodes_runSchedule (setup : Setup) (schedule : List Nat) (state : State) :
    (runSchedule setup schedule state).nodes.length = state.nodes.length := by
  induction schedule generalizing state with
  | nil => rfl
  | cons index schedule ih => exact (ih _).trans (length_nodes_step setup index state)

/-- An interleaving brings the nodes closer to their end, or it changes nothing since all
nodes in it have stopped. -/
theorem runSchedule_cases (setup : Setup) (schedule : List Nat) (state : State) :
    (runSchedule setup schedule state = state ∧
        ∀ index ∈ schedule, ∀ node, state.nodes[index]? = some node → node.isEnded = true) ∨
      (runSchedule setup schedule state).stepsLeft < state.stepsLeft := by
  induction schedule generalizing state with
  | nil => exact .inl ⟨rfl, by simp⟩
  | cons index schedule ih =>
    show (runSchedule setup schedule (step setup index state) = state ∧ _) ∨
      (runSchedule setup schedule (step setup index state)).stepsLeft < _
    obtain ⟨same, stopped⟩ | closer := step_cases setup index state
    · rw [same]
      exact (ih state).imp_left fun ⟨still, others⟩ => ⟨still, by simpa using ⟨stopped, others⟩⟩
    · obtain ⟨still, _⟩ | further := ih (step setup index state)
      · exact .inr (by rwa [still])
      · exact .inr (Nat.lt_trans further closer)

/-- Enough rounds of turns bring every node to its end. -/
theorem isFinished_takeTurns (size : state.nodes.length = setup.nodes) {rounds : Nat}
    (enough : state.stepsLeft ≤ rounds) : (takeTurns setup rounds state).isFinished = true := by
  induction rounds generalizing state with
  | zero =>
    have none_to_do : (state.nodes.map Node.stepsLeft).sum = 0 := by
      have := Nat.le_zero.mp enough
      simp only [State.stepsLeft] at this
      omega
    refine List.all_eq_true.mpr fun node member => ?_
    have none_left := List.sum_eq_zero_iff_forall_eq_nat.mp none_to_do _ (List.mem_map_of_mem member)
    cases node with
    | ended result => rfl
    | _ => cases none_left
  | succ rounds ih =>
    unfold takeTurns
    split
    next finished => exact finished
    next unfinished =>
      refine ih ((length_nodes_runSchedule ..).trans size) ?_
      obtain ⟨_, stopped⟩ | closer := runSchedule_cases setup (List.range setup.nodes) state
      · refine absurd (List.all_eq_true.mpr fun node member => ?_) unfinished
        obtain ⟨index, there⟩ := List.mem_iff_getElem?.mp member
        have within := (List.getElem?_eq_some_iff.mp there).1
        exact stopped index (List.mem_range.mpr (size ▸ within)) node there
      · omega

/-- However a job begins, all nodes stop in the end. -/
theorem isFinished_finalState (setup : Setup) (schedule : List Nat) (tasks : List PacketTask) :
    (finalState setup schedule tasks).isFinished = true := by
  have begun : (initial setup tasks).stepsLeft ≤ stepBound setup tasks := by
    simp only [State.stepsLeft, initial, List.map_replicate, List.sum_replicate_nat, Node.stepsLeft,
      stepBound]
    omega
  refine isFinished_takeTurns ?_ ?_
  · rw [length_nodes_runSchedule]
    exact List.length_replicate
  · obtain ⟨same, _⟩ | closer := runSchedule_cases setup schedule (initial setup tasks)
    · rwa [same]
    · exact Nat.le_trans (Nat.le_of_lt closer) begun

/-- Of every job, however it goes, an account can be given in the end. -/
theorem finalState_spec (opens : JobBundle.decode setup.bundle = .ok job)
    (valid : job.inputs.cacheSpec.validate = .ok ())
    (steady : setup.evaluator.Steady job.inputs) (schedule : List Nat) (tasks : List PacketTask) :
    Accounted setup job tasks (finalState setup schedule tasks) := by
  have begun : Accounted setup job tasks (initial setup tasks) := ⟨[], [], sound_initial setup job tasks⟩
  exact (begun.runSchedule opens valid steady schedule).takeTurns opens valid steady _

end Accessibility.Loopback
