import Mathlib.Data.List.Basic
import Accessibility.Execution.Local
import Accessibility.Proofs.Packet.Answer

/-! Workers over one cache answer a job as its packets come to on their own: there
are results exactly if every packet has one, in the order of the packets, and a fault
is that of a packet (`submit_eq_ok_iff`, `submit_fault`). This holds under every
interleaving of any number of workers and after any history of the cache. The
invariant accounts for every packet of the job: it waits, a worker stands in its
evaluation, or its result is there. -/
namespace Accessibility.LocalExecutor

variable {evaluator : Evaluator} {inputs : JobInputs} {packets : List Packet}
  {state : State} {under : Nat → Option Ongoing} {held : List Nat}

/-- A job under way in a history of its cache. The packets at the positions held are
accounted for elsewhere. -/
structure Sound (evaluator : Evaluator) (inputs : JobInputs) (packets : List Packet)
    (held : List Nat) (state : State) (under : Nat → Option Ongoing) : Prop where
  history : evaluator.History inputs state.cache under
  /-- Every busy worker stands in the evaluation of its packet. -/
  working : ∀ (worker position : Nat) (program : Evaluation PacketResult),
    state.workers[worker]? = some (.busy position program) →
    ∃ packet : Packet, packets[position]? = some packet ∧
      Stands evaluator inputs (packet.outcome evaluator inputs) (under worker) program
  waiting : ∀ entry ∈ state.waiting, packets[entry.2]? = some entry.1
  /-- There is a place for every packet's result. -/
  places : state.results.length = packets.length
  results : ∀ (position : Nat) (result : PacketResult), state.results[position]? = some (some result) →
    ∃ packet : Packet, packets[position]? = some packet ∧ packet.outcome evaluator inputs = .ok result
  fault : ∀ fault, state.fault = some fault →
    ∃ packet ∈ packets, packet.outcome evaluator inputs = .error fault
  /-- Up to the first fault no packet is lost. -/
  covered : state.fault = none → ∀ position < packets.length,
    position ∈ held ∨ (∃ packet, (packet, position) ∈ state.waiting) ∨
      (∃ (worker : Nat) (program : Evaluation PacketResult),
        state.workers[worker]? = some (.busy position program)) ∨
      ∃ result : PacketResult, state.results[position]? = some (some result)

/-- No worker is busy. -/
def Idle (state : State) : Prop :=
  ∀ (worker position : Nat) (program : Evaluation PacketResult),
    state.workers[worker]? ≠ some (.busy position program)

theorem firstFault_eq (noted : Option Fault) (fault : Fault) :
    firstFault noted fault = fault ∨ noted = some (firstFault noted fault) := by
  unfold firstFault
  cases noted with
  | none => simp
  | some first => by_cases broken : fault = .outOfBounds <;> simp [broken]

theorem sound_initial (evaluator : Evaluator) (inputs : JobInputs) (packets : List Packet)
    (threads : Nat) {cache : UtilityCache} (history : evaluator.History inputs cache under) :
    Sound evaluator inputs packets [] (initial threads packets cache) under where
  history := history
  working worker position program busy := by
    have member := List.mem_of_getElem? busy
    simp [initial] at member
  waiting entry member := List.mem_zipIdx_iff_getElem?.mp member
  places := by simp [initial]
  results position result there := by
    have member := List.mem_of_getElem? there
    simp [initial] at member
  fault fault noted := by cases noted
  covered _ position within := by
    refine .inr (.inl ⟨packets[position], ?_⟩)
    exact List.mem_zipIdx_iff_getElem?.mpr (List.getElem?_eq_getElem within)

/-- Noting what a packet came to takes it out of what is held. -/
theorem Sound.report {position : Nat} {packet : Packet}
    (sound : Sound evaluator inputs packets (position :: held) state under)
    (there : packets[position]? = some packet) :
    Sound evaluator inputs packets held
      (report state position (packet.outcome evaluator inputs)) under := by
  cases came : packet.outcome evaluator inputs with
  | ok result =>
    refine ⟨sound.history, sound.working, sound.waiting, ?_, ?_, sound.fault, ?_⟩
    · simpa [LocalExecutor.report] using sound.places
    · intro place found placed
      by_cases same : position = place
      · subst same
        have within : position < state.results.length := by
          rw [sound.places]
          exact (List.getElem?_eq_some_iff.mp there).1
        simp only [LocalExecutor.report, List.getElem?_set_self within, Option.some.injEq] at placed
        subst placed
        exact ⟨packet, there, came⟩
      · simp only [LocalExecutor.report, List.getElem?_set_ne same] at placed
        exact sound.results place found placed
    · intro clear place within
      obtain kept | waits | works | ⟨found, placed⟩ := sound.covered clear place within
      · obtain rfl | kept := List.mem_cons.mp kept
        · refine .inr (.inr (.inr ⟨result, ?_⟩))
          exact List.getElem?_set_self (by rw [sound.places]; exact within)
        · exact .inl kept
      · exact .inr (.inl waits)
      · exact .inr (.inr (.inl works))
      · refine .inr (.inr (.inr ?_))
        by_cases same : position = place
        · subst same
          exact ⟨result, List.getElem?_set_self (by rw [sound.places]; exact within)⟩
        · exact ⟨found, (List.getElem?_set_ne same).trans placed⟩
  | error fault =>
    refine ⟨sound.history, sound.working, sound.waiting, sound.places, sound.results, ?_, ?_⟩
    · intro noted said
      have member := List.mem_of_getElem? there
      simp only [LocalExecutor.report, Option.some.injEq] at said
      obtain latest | earlier := firstFault_eq state.fault fault
      · exact ⟨packet, member, by rw [came, ← said, latest]⟩
      · rw [said] at earlier
        exact sound.fault noted earlier
    · intro clear
      cases clear

/-- What is held may be let go once it is found elsewhere. -/
theorem Sound.letGo {position : Nat}
    (sound : Sound evaluator inputs packets (position :: held) state under)
    (busy : ∃ (worker : Nat) (program : Evaluation PacketResult),
      state.workers[worker]? = some (.busy position program)) :
    Sound evaluator inputs packets held state under := by
  refine { sound with covered := fun clear place within => ?_ }
  obtain kept | elsewhere := sound.covered clear place within
  · obtain rfl | kept := List.mem_cons.mp kept
    · exact .inr (.inr (.inl busy))
    · exact .inl kept
  · exact .inr elsewhere

/-- The position of the packet that a worker evaluates. -/
def Worker.positions : Worker → List Nat
  | .free => []
  | .busy position _ => [position]

/-- One worker changes its stand while the history of the cache goes on. What it
worked on is then held. -/
theorem Sound.setWorker {worker : Nat} {old : Worker} {cache : UtilityCache}
    {after : Nat → Option Ongoing} (sound : Sound evaluator inputs packets held state under)
    (new : Worker)
    (stood : state.workers[worker]? = some old) (went : evaluator.History inputs cache after)
    (others : ∀ other, other ≠ worker → after other = under other)
    (standing : ∀ (position : Nat) (program : Evaluation PacketResult), new = .busy position program →
      ∃ packet : Packet, packets[position]? = some packet ∧
        Stands evaluator inputs (packet.outcome evaluator inputs) (after worker) program) :
    Sound evaluator inputs packets (old.positions ++ held)
      { state with workers := state.workers.set worker new, cache } after := by
  have within := (List.getElem?_eq_some_iff.mp stood).1
  refine ⟨went, ?_, sound.waiting, sound.places, sound.results, sound.fault, ?_⟩
  · intro other place found working
    by_cases same : worker = other
    · subst same
      rw [List.getElem?_set_self within] at working
      exact standing place found (Option.some.inj working)
    · rw [List.getElem?_set_ne same] at working
      obtain ⟨packet, placed, stands⟩ := sound.working other place found working
      exact ⟨packet, placed, by rwa [others other (Ne.symm same)]⟩
  · intro clear place within'
    obtain kept | waits | ⟨other, found, working⟩ | placed := sound.covered clear place within'
    · exact .inl (List.mem_append_right _ kept)
    · exact .inr (.inl waits)
    · by_cases same : worker = other
      · subst same
        rw [stood] at working
        cases working
        exact .inl List.mem_cons_self
      · exact .inr (.inr (.inl ⟨other, found, (List.getElem?_set_ne same).trans working⟩))
    · exact .inr (.inr (.inr placed))

/-- A packet that a worker evaluates need not wait any longer. -/
theorem Sound.eraseWaiting {choice : Nat} {entry : Packet × Nat}
    (sound : Sound evaluator inputs packets held state under)
    (chosen : state.waiting[choice]? = some entry)
    (busy : ∃ (worker : Nat) (program : Evaluation PacketResult),
      state.workers[worker]? = some (.busy entry.2 program)) :
    Sound evaluator inputs packets held { state with waiting := state.waiting.eraseIdx choice }
      under := by
  refine { sound with
    waiting := fun found member => sound.waiting found (List.mem_of_mem_eraseIdx member)
    covered := fun clear place within => ?_ }
  obtain kept | ⟨found, waits⟩ | elsewhere := sound.covered clear place within
  · exact .inl kept
  · by_cases same : (found, place) = entry
    · subst same
      exact .inr (.inr (.inl busy))
    · refine .inr (.inl ⟨found, ?_⟩)
      obtain ⟨index, located⟩ := List.mem_iff_getElem?.mp waits
      refine List.mem_eraseIdx_iff_getElem?.mpr ⟨index, ?_, located⟩
      rintro rfl
      rw [located] at chosen
      exact same (Option.some.inj chosen)
  · exact .inr (.inr elsewhere)

/-- A free worker takes a packet. -/
theorem Sound.take {worker choice position : Nat} {packet : Packet}
    (sound : Sound evaluator inputs packets held state under) (steady : evaluator.Steady inputs)
    (free : state.workers[worker]? = some .free)
    (chosen : state.waiting[choice]? = some (packet, position)) :
    ∃ after, Sound evaluator inputs packets held
      { state with
        waiting := state.waiting.eraseIdx choice
        workers := state.workers.set worker (.busy position (evaluation evaluator inputs packet)) }
      after := by
  have there := sound.waiting _ (List.mem_of_getElem? chosen)
  have within := (List.getElem?_eq_some_iff.mp free).1
  obtain ⟨after, went, others, stands⟩ :=
    carried_of_follows worker steady (Packet.compute_follows_outcome steady packet) sound.history
  have working := sound.setWorker (.busy position (evaluation evaluator inputs packet))
    free went others fun place program same => by
      cases same
      exact ⟨packet, there, stands⟩
  exact ⟨after, working.eraseWaiting chosen ⟨worker, _, List.getElem?_set_self within⟩⟩

/-- The cache serves one request of a busy worker. -/
theorem Sound.serve {worker position : Nat} {program : Evaluation PacketResult}
    (sound : Sound evaluator inputs packets held state under) (steady : evaluator.Steady inputs)
    (busy : state.workers[worker]? = some (.busy position program)) :
    ∃ after, Sound evaluator inputs packets held
      { state with
        workers := state.workers.set worker (.busy position (program.advance state.cache).1)
        cache := (program.advance state.cache).2 } after := by
  have within := (List.getElem?_eq_some_iff.mp busy).1
  obtain ⟨packet, there, standing⟩ := sound.working worker position program busy
  obtain ⟨after, went, others, stands⟩ := advance_carried steady sound.history standing
  have served := sound.setWorker (.busy position (program.advance state.cache).1)
    busy went others fun place program same => by
      cases same
      exact ⟨packet, there, stands⟩
  exact ⟨after, served.letGo ⟨worker, _, List.getElem?_set_self within⟩⟩

/-- A worker that is set free leaves its packet to be held. -/
theorem Sound.release {worker position : Nat} {program : Evaluation PacketResult}
    (sound : Sound evaluator inputs packets held state under)
    (busy : state.workers[worker]? = some (.busy position program)) {cache : UtilityCache}
    {after : Nat → Option Ongoing} (went : evaluator.History inputs cache after)
    (others : ∀ other, other ≠ worker → after other = under other) :
    Sound evaluator inputs packets (position :: held)
      { state with workers := state.workers.set worker .free, cache } after :=
  sound.setWorker .free busy went others fun _ _ impossible => by cases impossible

/-- Every move keeps a job sound. -/
theorem Sound.step (sound : Sound evaluator inputs packets [] state under)
    (steady : evaluator.Steady inputs) (move : Move) :
    ∃ after, Sound evaluator inputs packets [] (step evaluator inputs move state) after := by
  cases stand : state.workers[move.worker]? with
  | none => exact ⟨under, by simpa only [LocalExecutor.step, stand] using sound⟩
  | some worker =>
    cases worker with
    | free =>
      cases chosen : state.waiting[move.choice]? with
      | none => exact ⟨under, by simpa only [LocalExecutor.step, stand, chosen] using sound⟩
      | some entry =>
        simp only [LocalExecutor.step, stand, chosen]
        exact sound.take steady stand chosen
    | busy position program =>
      cases program with
      | done outcome =>
        obtain ⟨packet, there, ended | ⟨_, _, _, _, _, impossible, _⟩⟩ :=
          sound.working move.worker position _ stand
        · cases ended
          simp only [LocalExecutor.step, stand]
          exact ⟨under, (sound.release stand sound.history fun _ _ => rfl).report there⟩
        · cases impossible
      | ask request next =>
        simp only [LocalExecutor.step, stand]
        exact sound.serve steady stand

/-- Every interleaving keeps a job sound. -/
theorem Sound.runSchedule (sound : Sound evaluator inputs packets [] state under)
    (steady : evaluator.Steady inputs) (schedule : List Move) :
    ∃ after, Sound evaluator inputs packets [] (runSchedule evaluator inputs schedule state) after := by
  induction schedule generalizing state under with
  | nil => exact ⟨under, sound⟩
  | cons move schedule ih =>
    obtain ⟨after, stepped⟩ := sound.step steady move
    exact ih stepped

@[simp] theorem report_workers (state : State) (position : Nat) (outcome : Outcome PacketResult) :
    (report state position outcome).workers = state.workers := by
  cases outcome <;> rfl

@[simp] theorem report_waiting (state : State) (position : Nat) (outcome : Outcome PacketResult) :
    (report state position outcome).waiting = state.waiting := by
  cases outcome <;> rfl

/-- A worker that finishes its packet keeps the job sound. -/
theorem Sound.finishWorker (sound : Sound evaluator inputs packets [] state under)
    (steady : evaluator.Steady inputs) (worker : Nat) :
    ∃ after, Sound evaluator inputs packets [] (finishWorker worker state) after := by
  unfold LocalExecutor.finishWorker
  split
  next position program busy =>
    obtain ⟨packet, there, stands⟩ := sound.working worker position program busy
    obtain ⟨came, after, went, others⟩ := run_stands steady sound.history stands
    simp only [came]
    exact ⟨after, (sound.release busy went others).report there⟩
  next => exact ⟨under, sound⟩

/-- Finishing a worker frees it, and sets no other to work. -/
theorem finishWorker_busy {worker other position : Nat} {program : Evaluation PacketResult}
    (busy : (finishWorker worker state).workers[other]? = some (.busy position program)) :
    other ≠ worker ∧ state.workers[other]? = some (.busy position program) := by
  unfold finishWorker at busy
  split at busy
  next place _ held =>
    simp only [report_workers] at busy
    by_cases same : worker = other
    · subst same
      rw [List.getElem?_set_self (List.getElem?_eq_some_iff.mp held).1] at busy
      cases busy
    · rw [List.getElem?_set_ne same] at busy
      exact ⟨Ne.symm same, busy⟩
  next free =>
    refine ⟨?_, busy⟩
    rintro rfl
    exact free position program busy

/-- Once all workers have finished, none is busy. -/
theorem Sound.finishWorkers (sound : Sound evaluator inputs packets [] state under)
    (steady : evaluator.Steady inputs) (workers : List Nat) :
    ∃ after, Sound evaluator inputs packets []
        (workers.foldl (fun state worker => LocalExecutor.finishWorker worker state) state) after ∧
      ∀ (other position : Nat) (program : Evaluation PacketResult),
        (workers.foldl (fun state worker => LocalExecutor.finishWorker worker state) state).workers[other]? =
          some (.busy position program) →
        other ∉ workers ∧ state.workers[other]? = some (.busy position program) := by
  induction workers generalizing state under with
  | nil => exact ⟨under, sound, fun _ _ _ busy => ⟨by simp, busy⟩⟩
  | cons worker workers ih =>
    obtain ⟨between, finished⟩ := sound.finishWorker steady worker
    obtain ⟨after, ended, left⟩ := ih finished
    refine ⟨after, ended, fun other position program busy => ?_⟩
    obtain ⟨outside, still⟩ := left other position program busy
    obtain ⟨different, before⟩ := finishWorker_busy still
    exact ⟨by simp [different, outside], before⟩

/-- Once nobody is busy the packet that waits first can be finished. -/
theorem Sound.finishFirst (sound : Sound evaluator inputs packets [] state under)
    (steady : evaluator.Steady inputs) (idle : Idle state) {packet : Packet} {position : Nat}
    {rest : List (Packet × Nat)} (waits : state.waiting = (packet, position) :: rest) :
    let ran := (evaluation evaluator inputs packet).run state.cache
    ran.1 = packet.outcome evaluator inputs ∧ packets[position]? = some packet ∧
      ∃ after, Sound evaluator inputs packets []
        (LocalExecutor.report { state with waiting := rest, cache := ran.2 } position ran.1) after := by
  intro ran
  have there := sound.waiting (packet, position) (by simp [waits])
  obtain ⟨after, went, _, stands⟩ :=
    carried_of_follows 0 steady (Packet.compute_follows_outcome steady packet) sound.history
  obtain ⟨came, final, arrived, _⟩ := run_stands steady went stands
  have came' : ran.1 = packet.outcome evaluator inputs := came
  have taken : Sound evaluator inputs packets [position]
      { state with waiting := rest, cache := ran.2 } final := by
    refine ⟨arrived, fun worker place program busy => absurd busy (idle worker place program),
      fun found member => sound.waiting found (by simp [waits, member]), sound.places,
      sound.results, sound.fault, fun clear place within => ?_⟩
    obtain kept | ⟨found, member⟩ | ⟨worker, program, busy⟩ | placed :=
      sound.covered clear place within
    · cases kept
    · rw [waits] at member
      obtain same | member := List.mem_cons.mp member
      · cases same
        exact .inl List.mem_cons_self
      · exact .inr (.inl ⟨found, member⟩)
    · exact absurd busy (idle worker place program)
    · exact .inr (.inr (.inr placed))
  have reported := taken.report there
  rw [← came'] at reported
  exact ⟨came', there, final, reported⟩

/-- The packets that wait can be finished one by one. -/
theorem Sound.finishPackets (sound : Sound evaluator inputs packets [] state under)
    (steady : evaluator.Steady inputs) (idle : Idle state) :
    ∃ after, Sound evaluator inputs packets [] (finishPackets evaluator inputs state.waiting state) after ∧
      Idle (LocalExecutor.finishPackets evaluator inputs state.waiting state) ∧
      (LocalExecutor.finishPackets evaluator inputs state.waiting state).waiting = [] := by
  generalize waits : state.waiting = waiting
  induction waiting generalizing state under with
  | nil =>
    refine ⟨under, ?_, idle, rfl⟩
    rw [LocalExecutor.finishPackets, ← waits]
    exact sound
  | cons entry rest ih =>
    obtain ⟨packet, position⟩ := entry
    simp only [LocalExecutor.finishPackets]
    split
    next noted =>
      refine ⟨under, ?_, idle, rfl⟩
      refine { sound with waiting := by simp, covered := fun clear => ?_ }
      rw [show state.fault = none from clear] at noted
      cases noted
    next =>
      obtain ⟨_, _, final, reported⟩ := sound.finishFirst steady idle waits
      refine ih reported (fun worker place program => ?_) (report_waiting ..)
      rw [report_workers]
      exact idle worker place program

/-- A job that is brought to its end has nothing waiting and nobody busy. -/
theorem Sound.finish (sound : Sound evaluator inputs packets [] state under)
    (steady : evaluator.Steady inputs) :
    ∃ after, Sound evaluator inputs packets [] (finish evaluator inputs state) after ∧
      Idle (LocalExecutor.finish evaluator inputs state) ∧
      (LocalExecutor.finish evaluator inputs state).waiting = [] := by
  obtain ⟨between, finished, left⟩ := sound.finishWorkers steady (List.range state.workers.length)
  refine finished.finishPackets steady fun worker position program busy => ?_
  obtain ⟨outside, before⟩ := left worker position program busy
  exact outside (List.mem_range.mpr (List.getElem?_eq_some_iff.mp before).1)

/-- If every place holds what its packet comes to, the results are those of the packets
in order. -/
private theorem map_eq_of_places {α β : Type} (f : α → Outcome β) (items : List α)
    (places : List (Option β)) (long : places.length = items.length)
    (filled : ∀ (position : Nat) (item : α), items[position]? = some item →
      ∃ result, places[position]? = some (some result) ∧ f item = .ok result) :
    items.map f = (places.filterMap id).map .ok := by
  induction items generalizing places with
  | nil =>
    cases List.length_eq_zero_iff.mp long
    rfl
  | cons item items ih =>
    cases places with
    | nil => cases long
    | cons place places =>
      obtain ⟨result, placed, came⟩ := filled 0 item rfl
      cases placed
      have rest := ih places (by simpa using long) fun position item there =>
        filled (position + 1) item there
      simp [came, rest]

/-- The answer of a job that is over. -/
theorem Sound.answer (sound : Sound evaluator inputs packets [] state under) (idle : Idle state)
    (empty : state.waiting = []) :
    (∀ results, state.answer = .ok results →
      packets.map (fun packet => packet.outcome evaluator inputs) = results.map .ok) ∧
    ∀ fault, state.answer = .error fault →
      ∃ packet ∈ packets, packet.outcome evaluator inputs = .error fault := by
  cases noted : state.fault with
  | some fault =>
    simp only [State.answer, noted, reduceCtorEq, false_implies, implies_true, true_and,
      Except.error.injEq, forall_eq']
    exact sound.fault fault noted
  | none =>
    simp only [State.answer, noted, reduceCtorEq, false_implies, implies_true, and_true,
      Except.ok.injEq, forall_eq']
    refine map_eq_of_places _ packets state.results sound.places fun position packet there => ?_
    obtain kept | ⟨found, waits⟩ | ⟨worker, program, busy⟩ | ⟨result, placed⟩ :=
      sound.covered noted position (List.getElem?_eq_some_iff.mp there).1
    · cases kept
    · simp [empty] at waits
    · exact absurd busy (idle worker position program)
    · obtain ⟨found, same, came⟩ := sound.results position result placed
      rw [there] at same
      cases same
      exact ⟨result, placed, came⟩

section Submit

variable {cache : UtilityCache}

private theorem submit_sound (packets : List Packet) (steady : evaluator.Steady inputs)
    (served : evaluator.Served inputs cache) (threads : Nat) (schedule : List Move) :
    ∃ final after, submit threads evaluator schedule inputs packets cache = (final.answer, final.cache) ∧
      Sound evaluator inputs packets [] final after ∧ Idle final ∧ final.waiting = [] := by
  obtain ⟨under, history⟩ := served
  obtain ⟨between, ran⟩ :=
    (sound_initial evaluator inputs packets threads history).runSchedule steady schedule
  obtain ⟨after, ended, idle, empty⟩ := ran.finish steady
  exact ⟨_, after, rfl, ended, idle, empty⟩

/-- A job leaves its cache with a history of the same kind. -/
theorem submit_served (steady : evaluator.Steady inputs) (served : evaluator.Served inputs cache)
    (threads : Nat) (schedule : List Move) :
    evaluator.Served inputs (submit threads evaluator schedule inputs packets cache).2 := by
  obtain ⟨final, after, same, sound, _⟩ := submit_sound packets steady served threads schedule
  rw [same]
  exact ⟨after, sound.history⟩

/-- A fault is that of a packet. -/
theorem submit_fault (steady : evaluator.Steady inputs) (served : evaluator.Served inputs cache)
    {threads : Nat} {schedule : List Move} {fault : Fault}
    (failed : (submit threads evaluator schedule inputs packets cache).1 = .error fault) :
    ∃ packet ∈ packets, packet.outcome evaluator inputs = .error fault := by
  obtain ⟨final, after, same, sound, idle, empty⟩ :=
    submit_sound packets steady served threads schedule
  rw [same] at failed
  exact (sound.answer idle empty).2 fault failed

/-- There are results exactly if every packet has one, and they are those of the
packets in order. -/
theorem submit_eq_ok_iff (steady : evaluator.Steady inputs) (served : evaluator.Served inputs cache)
    (threads : Nat) (schedule : List Move) (results : List PacketResult) :
    (submit threads evaluator schedule inputs packets cache).1 = .ok results ↔
      packets.map (fun packet => packet.outcome evaluator inputs) = results.map .ok := by
  obtain ⟨final, after, same, sound, idle, empty⟩ :=
    submit_sound packets steady served threads schedule
  obtain ⟨succeeds, fails⟩ := sound.answer idle empty
  rw [same]
  refine ⟨succeeds results, fun every => ?_⟩
  cases ended : final.answer with
  | error fault =>
    obtain ⟨packet, member, came⟩ := fails fault ended
    have listed := List.mem_map_of_mem (f := fun packet : Packet => packet.outcome evaluator inputs) member
    rw [every, came] at listed
    simp at listed
  | ok found =>
    have twice := (succeeds found ended).symm.trans every
    rw [(List.map_inj_right fun _ _ => Except.ok.inj).mp twice]

/-- An executor submits to its workers. -/
theorem submit_of_create {threads : Nat} {schedule : List Move} {executor : Executor UtilityCache}
    (created : create threads evaluator schedule = .ok executor) :
    executor.submit packets inputs = submit threads evaluator schedule inputs packets := by
  unfold create at created
  split at created
  next => cases created
  next =>
    cases created
    rfl

end Submit

end Accessibility.LocalExecutor
