import Accessibility.Proofs.Execution.Local

/-! The end of a job as moves of its workers. Workers that finish one after the other make moves
that an interleaving could have made, and a free one can finish the packets that wait; so all that
a submission does is the run of one interleaving (`exists_moves_submit`), and what every move keeps
holds at its end (`submit_induction`). -/
namespace Accessibility.LocalExecutor

variable {evaluator : Evaluator} {inputs : JobInputs} {packets : List Packet} {state : State}

theorem runSchedule_append (first second : List Move) (state : State) :
    runSchedule evaluator inputs (first ++ second) state =
      runSchedule evaluator inputs second (runSchedule evaluator inputs first state) :=
  List.foldl_append ..

/-- A worker by itself finishes the packet it evaluates. -/
theorem exists_moves_busy {worker position : Nat} {program : Evaluation PacketResult}
    (busy : state.workers[worker]? = some (.busy position program)) :
    ∃ moves, runSchedule evaluator inputs moves state =
      report { state with
          workers := state.workers.set worker .free
          cache := (program.run state.cache).2 } position (program.run state.cache).1 := by
  induction program generalizing state with
  | done outcome =>
    refine ⟨[⟨worker, 0⟩], ?_⟩
    simp only [runSchedule, List.foldl_cons, List.foldl_nil, step, busy]
    rfl
  | ask request next ih =>
    have within := (List.getElem?_eq_some_iff.mp busy).1
    have served : step evaluator inputs ⟨worker, 0⟩ state = { state with
        workers := state.workers.set worker (.busy position (next (state.cache.serve request).1))
        cache := (state.cache.serve request).2 } := by
      simp only [step, busy, Evaluation.advance]
    obtain ⟨moves, ran⟩ := @ih (state.cache.serve request).1 (step evaluator inputs ⟨worker, 0⟩ state)
      (by rw [served]; exact List.getElem?_set_self within)
    refine ⟨⟨worker, 0⟩ :: moves, ran.trans ?_⟩
    rw [served]
    simp only [List.set_set]
    rfl

theorem exists_moves_finishWorker (worker : Nat) (state : State) :
    ∃ moves, runSchedule evaluator inputs moves state = finishWorker worker state := by
  unfold finishWorker
  split
  next position program busy => exact exists_moves_busy busy
  next => exact ⟨[], rfl⟩

theorem exists_moves_finishWorkers (workers : List Nat) (state : State) :
    ∃ moves, runSchedule evaluator inputs moves state =
      workers.foldl (fun state worker => finishWorker worker state) state := by
  induction workers generalizing state with
  | nil => exact ⟨[], rfl⟩
  | cons worker workers ih =>
    obtain ⟨first, finished⟩ := exists_moves_finishWorker worker state
    obtain ⟨second, others⟩ := ih (finishWorker worker state)
    refine ⟨first ++ second, ?_⟩
    rw [runSchedule_append, finished, others, List.foldl_cons]

theorem length_finishWorkers (workers : List Nat) (state : State) :
    (workers.foldl (fun state worker => finishWorker worker state) state).workers.length =
      state.workers.length := by
  induction workers generalizing state with
  | nil => rfl
  | cons worker workers ih =>
    rw [List.foldl_cons, ih]
    unfold finishWorker
    split
    · rw [report_workers, List.length_set]
    · rfl

/-- Finishing workers frees them, and sets no other to work. -/
theorem finishWorkers_busy {workers : List Nat} {other position : Nat}
    {program : Evaluation PacketResult}
    (busy : (workers.foldl (fun state worker => finishWorker worker state) state).workers[other]? =
      some (.busy position program)) :
    other ∉ workers ∧ state.workers[other]? = some (.busy position program) := by
  induction workers generalizing state with
  | nil => exact ⟨by simp, busy⟩
  | cons worker workers ih =>
    obtain ⟨outside, still⟩ := ih busy
    obtain ⟨different, before⟩ := finishWorker_busy still
    exact ⟨by simp [different, outside], before⟩

theorem idle_finishWorkers (state : State) :
    Idle ((List.range state.workers.length).foldl (fun state worker => finishWorker worker state)
      state) := by
  intro worker position program busy
  obtain ⟨outside, before⟩ := finishWorkers_busy busy
  exact outside (List.mem_range.mpr (List.getElem?_eq_some_iff.mp before).1)

/-- A free worker takes the packet that waits first and finishes it. -/
theorem exists_moves_first (idle : state.workers[0]? = some .free) {packet : Packet} {position : Nat}
    {rest : List (Packet × Nat)} (waits : state.waiting = (packet, position) :: rest) :
    let ran := (evaluation evaluator inputs packet).run state.cache
    ∃ moves, runSchedule evaluator inputs moves state =
      report { state with waiting := rest, cache := ran.2 } position ran.1 := by
  intro ran
  obtain ⟨within, here⟩ := List.getElem?_eq_some_iff.mp idle
  have taken : step evaluator inputs ⟨0, 0⟩ state = { state with
      waiting := rest
      workers := state.workers.set 0 (.busy position (evaluation evaluator inputs packet)) } := by
    simp only [step, idle, waits, List.getElem?_cons_zero, List.eraseIdx_cons_zero]
  have busy : (step evaluator inputs ⟨0, 0⟩ state).workers[0]? =
      some (.busy position (evaluation evaluator inputs packet)) := by
    rw [taken]
    exact List.getElem?_set_self within
  obtain ⟨moves, finished⟩ := @exists_moves_busy evaluator inputs _ _ _ _ busy
  refine ⟨⟨0, 0⟩ :: moves, finished.trans ?_⟩
  rw [taken]
  simp only [List.set_set]
  rw [← here, List.set_getElem_self]

/-- Once nobody is busy, a worker takes the packets that wait and finishes them, up to the first
fault; nobody takes those that still wait then. -/
theorem exists_moves_finishPackets (idle : Idle state) (some_worker : 0 < state.workers.length) :
    ∃ moves, finishPackets evaluator inputs state.waiting state =
        { runSchedule evaluator inputs moves state with waiting := [] } ∧
      Idle (runSchedule evaluator inputs moves state) ∧
      ((runSchedule evaluator inputs moves state).fault = none →
        (runSchedule evaluator inputs moves state).waiting = []) := by
  generalize waits : state.waiting = waiting
  induction waiting generalizing state with
  | nil => exact ⟨[], rfl, idle, fun _ => waits⟩
  | cons entry rest ih =>
    obtain ⟨packet, position⟩ := entry
    simp only [finishPackets]
    split
    next noted =>
      refine ⟨[], rfl, idle, fun clear => ?_⟩
      rw [show state.fault = none from clear] at noted
      cases noted
    next =>
      have free : state.workers[0]? = some .free := by
        cases first : state.workers[0] with
        | free => rw [List.getElem?_eq_getElem some_worker, first]
        | busy place program =>
          exact absurd (first ▸ List.getElem?_eq_getElem some_worker) (idle 0 place program)
      obtain ⟨first, finished⟩ := @exists_moves_first evaluator inputs _ free _ _ _ waits
      obtain ⟨second, others, still, done⟩ := @ih
        (runSchedule evaluator inputs first state) (by
          rw [finished]
          exact fun worker place program => by
            rw [report_workers]
            exact idle worker place program) (by
          rw [finished, report_workers]
          exact some_worker) (by
          rw [finished, report_waiting])
      refine ⟨first ++ second, ?_⟩
      rw [runSchedule_append]
      refine ⟨?_, still, done⟩
      rw [← others, finished]

/-- No move hires or dismisses a worker. -/
theorem length_runSchedule (schedule : List Move) (state : State) :
    (runSchedule evaluator inputs schedule state).workers.length = state.workers.length := by
  induction schedule generalizing state with
  | nil => rfl
  | cons move schedule ih =>
    refine (ih (step evaluator inputs move state)).trans ?_
    unfold step
    split
    next => rfl
    next =>
      split
      · rfl
      · exact List.length_set
    next => rw [report_workers, List.length_set]
    next => exact List.length_set

/-- A job with results has met no fault. -/
theorem fault_of_answer {results : List PacketResult} (came : state.answer = .ok results) :
    state.fault = none := by
  unfold State.answer at came
  split at came
  next => cases came
  next clear => exact clear

/-- All that a submission does is the run of one interleaving. It leaves nobody busy, and unless
there was a fault nothing waiting. -/
theorem exists_moves_submit {threads : Nat} (some_threads : threads ≠ 0) (schedule : List Move)
    (packets : List Packet) (cache : UtilityCache) :
    ∃ moves, let last := runSchedule evaluator inputs moves (initial threads packets cache)
      submit threads evaluator schedule inputs packets cache = (last.answer, last.cache) ∧
        Idle last ∧ (last.fault = none → last.waiting = []) := by
  let under := runSchedule evaluator inputs schedule (initial threads packets cache)
  let freed := (List.range under.workers.length).foldl (fun state worker => finishWorker worker state)
    under
  obtain ⟨first, finished⟩ := @exists_moves_finishWorkers evaluator inputs
    (List.range under.workers.length) under
  have manned : 0 < freed.workers.length := by
    rw [length_finishWorkers, length_runSchedule]
    simpa [initial] using Nat.pos_of_ne_zero some_threads
  obtain ⟨second, ended, idle, done⟩ := @exists_moves_finishPackets evaluator inputs freed
    (idle_finishWorkers under) manned
  refine ⟨schedule ++ (first ++ second), ?_⟩
  rw [runSchedule_append, runSchedule_append, finished]
  refine ⟨?_, idle, done⟩
  show ((finish evaluator inputs under).answer, (finish evaluator inputs under).cache) = _
  rw [show finish evaluator inputs under = _ from ended]
  rfl

/-- What every move keeps holds after any interleaving. -/
theorem runSchedule_induction {holds : State → Prop}
    (keeps : ∀ state move, holds state → holds (step evaluator inputs move state))
    (schedule : List Move) (begun : holds state) :
    holds (runSchedule evaluator inputs schedule state) := by
  induction schedule generalizing state with
  | nil => exact begun
  | cons move schedule ih => exact ih (keeps state move begun)

/-- What holds before a job and is kept by every move holds at its end. Nobody is busy then, and unless
there was a fault nothing waits. -/
theorem submit_induction {holds : State → Prop}
    (keeps : ∀ state move, holds state → holds (step evaluator inputs move state)) {threads : Nat}
    (some_threads : threads ≠ 0) (schedule : List Move) {packets : List Packet} {cache : UtilityCache}
    (begun : holds (initial threads packets cache)) :
    ∃ last, submit threads evaluator schedule inputs packets cache = (last.answer, last.cache) ∧
      holds last ∧ Idle last ∧ (last.fault = none → last.waiting = []) := by
  obtain ⟨moves, ended, idle, done⟩ := exists_moves_submit some_threads schedule packets cache
  exact ⟨_, ended, runSchedule_induction keeps moves begun, idle, done⟩

/-- An executor that could be set up has workers. -/
theorem some_threads_of_create {threads : Nat} {schedule : List Move} {executor : Executor UtilityCache}
    (created : create threads evaluator schedule = .ok executor) : threads ≠ 0 := by
  rintro rfl
  cases created

end Accessibility.LocalExecutor
