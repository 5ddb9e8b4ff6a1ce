import Accessibility.Proofs.Evaluation.Settled
import Accessibility.Proofs.Execution.Local

/-! Workers over a cache and workers that know the answers. If a job's evaluations are settled,
then whatever the workers do is done move by move, but for the requests to the cache, by others
whose evaluator knows the outcomes and asks for nothing (`Mirrors.step`). So the answers that a
job may have on an agreed cache do not depend on what the cache holds: results if all packets
have them, or the fault of any packet that fails (`exists_submit_eq_iff`). -/
namespace Accessibility

/-- The evaluator that knows the answers of another one on a new cache. -/
def Evaluator.informed (evaluator : Evaluator) (spec : CacheSpec) : Evaluator where
  names := evaluator.names
  evaluate zone context := .done ((evaluator.evaluate zone context).run (.empty spec)).1

namespace Packet

variable {evaluator : Evaluator} {context : Context} {answers : UInt32 → Outcome (List Double)}

theorem computeRows_of_quiet (quiet : ∀ zone, evaluator.evaluate zone context = .done (answers zone))
    (zones : List UInt32) (values : Array Single) :
    computeRows evaluator context zones values = .done (answerRows evaluator.width answers zones values) := by
  induction zones generalizing values with
  | nil => rfl
  | cons zone rest ih =>
    show (evaluator.evaluate zone context).bind _ = _
    rw [quiet, answerRows]
    cases answers zone with
    | error fault => rfl
    | ok row =>
      show (Evaluation.done (checkRow evaluator.width zone row)).bind _ = _
      cases checked : checkRow evaluator.width zone row with
      | error fault => simp [Evaluation.bind, bind, Except.bind, checked]
      | ok singles => simp [Evaluation.bind, bind, Except.bind, checked, ih]

/-- An evaluator that asks for nothing leaves nothing to be asked for a packet. -/
theorem compute_of_quiet (quiet : ∀ zone, evaluator.evaluate zone context = .done (answers zone))
    (packet : Packet) (zoneIds : Array UInt32) :
    packet.compute zoneIds evaluator context = .done (packet.answer zoneIds evaluator.width answers) := by
  show (Evaluation.done (packet.zonesOf zoneIds)).bind _ = _
  rw [answer]
  cases packet.zonesOf zoneIds with
  | error fault => rfl
  | ok zones =>
    show (computeRows evaluator context zones #[]).bind _ = _
    rw [computeRows_of_quiet quiet]
    simp only [bind, Except.bind]
    cases answerRows evaluator.width answers zones #[] <;> rfl

end Packet

namespace LocalExecutor

variable {agreement : CacheAgreement} {evaluator quiet : Evaluator} {inputs : JobInputs}
  {packets : List Packet} {state mirror : State} {cache : UtilityCache}

/-- An evaluator asks for nothing, and knows what another one comes to for every packet on all
agreed caches. -/
structure Knows (agreement : CacheAgreement) (inputs : JobInputs) (evaluator quiet : Evaluator) : Prop where
  steady : quiet.Steady inputs
  told : ∀ packet, evaluation quiet inputs packet = .done (packet.outcome quiet inputs)
  settled : ∀ packet, (evaluation evaluator inputs packet).Settled agreement (packet.outcome quiet inputs)

theorem knows_informed {spec : CacheSpec} (valid : agreement.valid (.empty spec))
    (settled : ∀ zone ∈ inputs.zones.zoneIds, ∃ result,
      (evaluator.evaluate zone (.ofJob inputs)).Settled agreement result) :
    Knows agreement inputs evaluator (evaluator.informed spec) := by
  have told : ∀ packet, evaluation (evaluator.informed spec) inputs packet =
      .done (packet.answer inputs.zones.zoneIds evaluator.width fun zone =>
        ((evaluator.evaluate zone (.ofJob inputs)).run (.empty spec)).1) := fun packet =>
    Packet.compute_of_quiet (fun _ => rfl) packet inputs.zones.zoneIds
  have outcome : ∀ packet : Packet, packet.outcome (evaluator.informed spec) inputs =
      packet.answer inputs.zones.zoneIds evaluator.width fun zone =>
        ((evaluator.evaluate zone (.ofJob inputs)).run (.empty spec)).1 := fun packet =>
    congrArg (fun program => (Evaluation.run program (.empty inputs.cacheSpec)).1) (told packet)
  refine ⟨Evaluator.steady_of_quiet fun _ => ⟨_, rfl⟩, fun packet => ?_, fun packet => ?_⟩
  · rw [told, outcome]
  · rw [outcome]
    apply Packet.settled_compute
    intro zone listed
    obtain ⟨result, same⟩ := settled zone listed
    rwa [same.run_eq valid]

/-- Where a worker and its mirror stand. -/
inductive Counterpart (agreement : CacheAgreement) (cache : UtilityCache) : Worker → Worker → Prop where
  | free : Counterpart agreement cache .free .free
  | busy {position : Nat} {program : Evaluation PacketResult} {outcome : Outcome PacketResult}
    (keeps : program.Keeps agreement (fun found _ => found = outcome) cache) :
    Counterpart agreement cache (.busy position program) (.busy position (.done outcome))

theorem Counterpart.later {current : UtilityCache} {worker other : Worker}
    (counterpart : Counterpart agreement cache worker other) (grows : agreement.grows cache current) :
    Counterpart agreement current worker other := by
  cases counterpart with
  | free => exact .free
  | busy keeps => exact .busy (keeps.later grows)

/-- A job under way over an agreed cache, and its mirror. -/
structure Mirrors (agreement : CacheAgreement) (state mirror : State) : Prop where
  valid : agreement.valid state.cache
  size : state.workers.length = mirror.workers.length
  workers : ∀ index : Nat,
    Option.Rel (Counterpart agreement state.cache) state.workers[index]? mirror.workers[index]?
  waiting : state.waiting = mirror.waiting
  results : state.results = mirror.results
  fault : state.fault = mirror.fault

theorem mirrors_initial (valid : agreement.valid cache) (threads : Nat) (packets : List Packet)
    (other : UtilityCache) :
    Mirrors agreement (initial threads packets cache) (initial threads packets other) where
  valid := valid
  size := rfl
  workers index := by
    simp only [initial, List.getElem?_replicate]
    split
    · exact .some .free
    · exact .none
  waiting := rfl
  results := rfl
  fault := rfl

/-- What is done to the cache leaves every worker a counterpart of its mirror. -/
theorem Mirrors.counterpart (mirrors : Mirrors agreement state mirror) (grows : agreement.grows state.cache cache)
    (index : Nat) : Option.Rel (Counterpart agreement cache) state.workers[index]? mirror.workers[index]? := by
  have stands := mirrors.workers index
  generalize state.workers[index]? = worker at stands ⊢
  generalize mirror.workers[index]? = worker' at stands ⊢
  cases stands with
  | some stands => exact .some (stands.later grows)
  | none => exact .none

/-- A worker goes on, and its mirror with it. -/
theorem Mirrors.setWorker {new new' : Worker} (mirrors : Mirrors agreement state mirror) (index : Nat)
    (valid : agreement.valid cache) (grows : agreement.grows state.cache cache)
    (counterpart : Counterpart agreement cache new new') :
    Mirrors agreement { state with workers := state.workers.set index new, cache }
      { mirror with workers := mirror.workers.set index new' } := by
  refine { mirrors with valid, size := by simp [mirrors.size], workers := fun other => ?_ }
  simp only [List.getElem?_set, mirrors.size]
  split
  · split
    · exact .some counterpart
    · exact .none
  · exact mirrors.counterpart grows other

theorem Mirrors.report (mirrors : Mirrors agreement state mirror) (position : Nat)
    (outcome : Outcome PacketResult) :
    Mirrors agreement (report state position outcome) (report mirror position outcome) := by
  cases outcome with
  | ok result => exact { mirrors with results := congrArg (·.set position (some result)) mirrors.results }
  | error fault =>
    exact { mirrors with fault := congrArg (fun noted => some (firstFault noted fault)) mirrors.fault }

/-- A worker that is done with a packet reports what its mirror reports. -/
theorem Mirrors.release {program : Evaluation PacketResult} {outcome : Outcome PacketResult}
    (mirrors : Mirrors agreement state mirror) (index position : Nat)
    (keeps : program.Keeps agreement (fun found _ => found = outcome) state.cache) :
    (program.run state.cache).1 = outcome ∧
      Mirrors agreement
        (LocalExecutor.report { state with
          workers := state.workers.set index .free, cache := (program.run state.cache).2 } position outcome)
        (LocalExecutor.report { mirror with workers := mirror.workers.set index .free } position outcome) := by
  obtain ⟨valid, grows, same⟩ := keeps.run mirrors.valid
  exact ⟨same, (mirrors.setWorker index valid grows .free).report position outcome⟩

/-- A free worker takes a packet, and its mirror the same one. -/
theorem Mirrors.take {choice position : Nat} {packet : Packet} (mirrors : Mirrors agreement state mirror)
    (knows : Knows agreement inputs evaluator quiet) (index : Nat) :
    Mirrors agreement
      { state with
        waiting := state.waiting.eraseIdx choice
        workers := state.workers.set index (.busy position (evaluation evaluator inputs packet)) }
      { mirror with
        waiting := mirror.waiting.eraseIdx choice
        workers := mirror.workers.set index (.busy position (evaluation quiet inputs packet)) } := by
  have counterpart : Counterpart agreement state.cache (.busy position (evaluation evaluator inputs packet))
      (.busy position (evaluation quiet inputs packet)) := by
    rw [knows.told]
    exact .busy (knows.settled packet state.cache mirrors.valid)
  have working := mirrors.setWorker index mirrors.valid (agreement.refl _) counterpart
  exact { working with waiting := congrArg (·.eraseIdx choice) mirrors.waiting }

/-- A request is served, which leaves the mirror where it is. -/
theorem Mirrors.serve {index position : Nat} {program : Evaluation PacketResult} {outcome : Outcome PacketResult}
    (mirrors : Mirrors agreement state mirror)
    (keeps : program.Keeps agreement (fun found _ => found = outcome) state.cache)
    (stands : mirror.workers[index]? = some (.busy position (.done outcome))) :
    Mirrors agreement
      { state with
        workers := state.workers.set index (.busy position (program.advance state.cache).1)
        cache := (program.advance state.cache).2 } mirror := by
  obtain ⟨valid, grows, goesOn⟩ := keeps.advance mirrors.valid
  have counterpart : Counterpart agreement _ (.busy position _) (.busy position (.done outcome)) :=
    .busy goesOn
  have served := mirrors.setWorker index valid grows counterpart
  have unmoved : mirror.workers.set index (.busy position (.done outcome)) = mirror.workers := by
    obtain ⟨within, here⟩ := List.getElem?_eq_some_iff.mp stands
    rw [← here, List.set_getElem_self]
  rwa [unmoved] at served

/-- What a worker does its mirror does with it, or stays where it is while a request is
served. -/
theorem Mirrors.step (mirrors : Mirrors agreement state mirror)
    (knows : Knows agreement inputs evaluator quiet) (move : Move) :
    ∃ moves, moves.Sublist [move] ∧
      Mirrors agreement (step evaluator inputs move state) (runSchedule quiet inputs moves mirror) := by
  have stands := mirrors.workers move.worker
  have stay : [].Sublist [move] := List.nil_sublist _
  have follow : [move].Sublist [move] := List.Sublist.refl _
  cases stand : state.workers[move.worker]? with
  | none =>
    refine ⟨[], stay, ?_⟩
    simpa only [LocalExecutor.step, stand, runSchedule, List.foldl_nil] using mirrors
  | some worker =>
    generalize stand' : mirror.workers[move.worker]? = other at stands
    rw [stand] at stands
    cases stands with
    | some counterpart =>
    cases counterpart with
    | free =>
      cases chosen : state.waiting[move.choice]? with
      | none =>
        refine ⟨[], stay, ?_⟩
        simpa only [LocalExecutor.step, stand, chosen, runSchedule, List.foldl_nil] using mirrors
      | some entry =>
        have chosen' : mirror.waiting[move.choice]? = some entry := mirrors.waiting ▸ chosen
        refine ⟨[move], follow, ?_⟩
        simp only [runSchedule, List.foldl_cons, List.foldl_nil, LocalExecutor.step, stand, stand', chosen, chosen']
        exact mirrors.take knows move.worker
    | @busy position program outcome keeps =>
      cases program with
      | done result =>
        obtain ⟨same, released⟩ := mirrors.release move.worker position keeps
        have same : result = outcome := same
        refine ⟨[move], follow, ?_⟩
        simp only [runSchedule, List.foldl_cons, List.foldl_nil, LocalExecutor.step, stand, stand', same]
        exact released
      | ask request next =>
        -- The mirror has its outcome already and does not move until it is reported.
        refine ⟨[], stay, ?_⟩
        simp only [runSchedule, List.foldl_nil, LocalExecutor.step, stand]
        exact mirrors.serve keeps stand'

/-- An interleaving is mirrored by some of its moves. -/
theorem Mirrors.runSchedule (mirrors : Mirrors agreement state mirror)
    (knows : Knows agreement inputs evaluator quiet) (schedule : List Move) :
    ∃ moves, moves.Sublist schedule ∧ Mirrors agreement (runSchedule evaluator inputs schedule state)
      (LocalExecutor.runSchedule quiet inputs moves mirror) := by
  induction schedule generalizing state mirror with
  | nil => exact ⟨[], List.Sublist.refl _, mirrors⟩
  | cons move schedule ih =>
    obtain ⟨first, some, stepped⟩ := mirrors.step knows move
    obtain ⟨rest, others, ran⟩ := ih stepped
    have joined : LocalExecutor.runSchedule quiet inputs (first ++ rest) mirror =
        LocalExecutor.runSchedule quiet inputs rest (LocalExecutor.runSchedule quiet inputs first mirror) :=
      List.foldl_append ..
    refine ⟨first ++ rest, some.append others, ?_⟩
    rw [joined]
    exact ran

theorem Mirrors.finishWorker (mirrors : Mirrors agreement state mirror) (index : Nat) :
    Mirrors agreement (finishWorker index state) (finishWorker index mirror) := by
  have stands := mirrors.workers index
  unfold LocalExecutor.finishWorker
  generalize state.workers[index]? = worker at stands ⊢
  generalize mirror.workers[index]? = worker' at stands ⊢
  cases stands with
  | none => exact mirrors
  | some counterpart =>
    cases counterpart with
    | free => exact mirrors
    | @busy position program outcome keeps =>
      obtain ⟨same, released⟩ := mirrors.release index position keeps
      simp only [same, Evaluation.run]
      exact released

theorem Mirrors.finishWorkers (mirrors : Mirrors agreement state mirror) (workers : List Nat) :
    Mirrors agreement (workers.foldl (fun state worker => LocalExecutor.finishWorker worker state) state)
      (workers.foldl (fun state worker => LocalExecutor.finishWorker worker state) mirror) := by
  induction workers generalizing state mirror with
  | nil => exact mirrors
  | cons worker workers ih => exact ih (mirrors.finishWorker worker)

theorem Mirrors.finishPackets (mirrors : Mirrors agreement state mirror)
    (knows : Knows agreement inputs evaluator quiet) (waiting : List (Packet × Nat)) :
    Mirrors agreement (finishPackets evaluator inputs waiting state)
      (finishPackets quiet inputs waiting mirror) := by
  induction waiting generalizing state mirror with
  | nil => exact { mirrors with waiting := rfl }
  | cons entry rest ih =>
    obtain ⟨packet, position⟩ := entry
    have faults := mirrors.fault
    by_cases noted : state.fault.isSome = true
    · have noted' : mirror.fault.isSome = true := faults ▸ noted
      simp only [LocalExecutor.finishPackets, if_pos noted, if_pos noted']
      exact { mirrors with waiting := rfl }
    · have noted' : ¬ mirror.fault.isSome = true := faults ▸ noted
      obtain ⟨valid, grows, same⟩ := (knows.settled packet state.cache mirrors.valid).run mirrors.valid
      have ran : Mirrors agreement
          { state with waiting := rest, cache := ((evaluation evaluator inputs packet).run state.cache).2 }
          { mirror with waiting := rest } := by
        exact { mirrors with valid, waiting := rfl, workers := mirrors.counterpart grows }
      simp only [LocalExecutor.finishPackets, if_neg noted, if_neg noted', knows.told, same, Evaluation.run]
      exact ih (ran.report position (packet.outcome quiet inputs))

theorem Mirrors.finish (mirrors : Mirrors agreement state mirror)
    (knows : Knows agreement inputs evaluator quiet) :
    Mirrors agreement (finish evaluator inputs state) (finish quiet inputs mirror) := by
  have idle := mirrors.finishWorkers (List.range state.workers.length)
  rw [LocalExecutor.finish, LocalExecutor.finish, ← mirrors.size, ← idle.waiting]
  exact idle.finishPackets knows _

theorem Mirrors.answer (mirrors : Mirrors agreement state mirror) : state.answer = mirror.answer := by
  rw [State.answer, State.answer, mirrors.fault, mirrors.results]

/-- A job on an agreed cache is answered as its mirror is. -/
theorem submit_mirrored (knows : Knows agreement inputs evaluator quiet) (valid : agreement.valid cache)
    (threads : Nat) (schedule : List Move) (packets : List Packet) (other : UtilityCache) :
    ∃ moves, moves.Sublist schedule ∧ (submit threads evaluator schedule inputs packets cache).1 =
      (submit threads quiet moves inputs packets other).1 := by
  obtain ⟨moves, among, ran⟩ := (mirrors_initial valid threads packets other).runSchedule knows schedule
  exact ⟨moves, among, (ran.finish knows).answer⟩

theorem Idle.finishWorker (idle : Idle state) (index : Nat) : LocalExecutor.finishWorker index state = state := by
  unfold LocalExecutor.finishWorker
  split
  next position program busy => exact absurd busy (idle index position program)
  next => rfl

theorem Idle.finishWorkers (idle : Idle state) (workers : List Nat) :
    workers.foldl (fun state worker => LocalExecutor.finishWorker worker state) state = state := by
  induction workers with
  | nil => rfl
  | cons worker workers ih => rw [List.foldl_cons, idle.finishWorker, ih]

/-- Behind a fault no packet is taken. -/
theorem fault_finishPackets {fault : Fault} (noted : state.fault = some fault) (waiting : List (Packet × Nat)) :
    (finishPackets evaluator inputs waiting state).fault = some fault := by
  cases waiting with
  | nil => exact noted
  | cons entry rest => simp only [finishPackets, noted, Option.isSome_some, ↓reduceIte]

/-- Any packet that fails can be the one that ends the job: it is the first to be taken, and the
worker that took it finishes before the others begin. -/
theorem submit_first {threads position : Nat} {packet : Packet} {fault : Fault} (enough : threads ≠ 0)
    (there : packets[position]? = some packet)
    (failed : ((evaluation evaluator inputs packet).run cache).1 = .error fault) :
    (submit threads evaluator [⟨0, position⟩] inputs packets cache).1 = .error fault := by
  obtain ⟨others, rfl⟩ := Nat.exists_eq_succ_of_ne_zero enough
  have chosen : (initial (others + 1) packets cache).waiting[position]? = some (packet, position) := by
    simp [initial, there]
  have free : (initial (others + 1) packets cache).workers[0]? = some .free := by
    simp [initial]
  let under := { initial (others + 1) packets cache with
    waiting := packets.zipIdx.eraseIdx position
    workers := .busy position (evaluation evaluator inputs packet) :: List.replicate others .free }
  have taken : runSchedule evaluator inputs [⟨0, position⟩] (initial (others + 1) packets cache) = under := by
    simp only [runSchedule, List.foldl_cons, List.foldl_nil, step, free, chosen]
    simp [under, initial, List.replicate_succ]
  -- The first worker reports the fault; then nobody is busy, and nobody takes another packet.
  have noted : (LocalExecutor.finishWorker 0 under).fault = some fault := by
    simp only [LocalExecutor.finishWorker, under, List.getElem?_cons_zero]
    rw [show (initial (others + 1) packets cache).cache = cache from rfl, failed]
    simp [report, firstFault, initial]
  have idle : Idle (LocalExecutor.finishWorker 0 under) := by
    intro worker place program busy
    obtain ⟨different, before⟩ := finishWorker_busy busy
    obtain ⟨index, rfl⟩ := Nat.exists_eq_succ_of_ne_zero different
    have member := List.mem_of_getElem? (show (List.replicate others Worker.free)[index]? = _ from before)
    cases (List.mem_replicate.mp member).2
  have finished : (finish evaluator inputs under).fault = some fault := by
    simp only [finish, under, List.length_cons, List.length_replicate, List.range_succ_eq_map, List.foldl_cons]
    rw [idle.finishWorkers]
    exact fault_finishPackets noted _
  simp only [submit, taken, State.answer, finished]

section Answers

variable {other : UtilityCache}

/-- On agreed caches a job has results exactly if every packet has one, whatever the moves. -/
theorem submit_eq_ok_iff_of_knows (knows : Knows agreement inputs evaluator quiet)
    (valid : agreement.valid cache) (threads : Nat) (schedule : List Move) (results : List PacketResult) :
    (submit threads evaluator schedule inputs packets cache).1 = .ok results ↔
      packets.map (fun packet => packet.outcome quiet inputs) = results.map .ok := by
  obtain ⟨moves, _, same⟩ :=
    submit_mirrored knows valid threads schedule packets (.empty inputs.cacheSpec)
  rw [same]
  exact submit_eq_ok_iff knows.steady (quiet.served_empty inputs) threads moves results

/-- The answers that a job may have on an agreed cache: results if all packets have them, or the
fault of any that fails. -/
theorem exists_submit_eq_iff (knows : Knows agreement inputs evaluator quiet)
    (valid : agreement.valid cache) {threads : Nat} (enough : threads ≠ 0)
    (answer : Outcome (List PacketResult)) :
    (∃ schedule, (submit threads evaluator schedule inputs packets cache).1 = answer) ↔
      (∃ results, answer = .ok results ∧
        packets.map (fun packet => packet.outcome quiet inputs) = results.map .ok) ∨
      ∃ packet ∈ packets, ∃ fault, answer = .error fault ∧ packet.outcome quiet inputs = .error fault := by
  constructor
  · rintro ⟨schedule, came⟩
    cases answer with
    | ok results =>
      exact .inl ⟨results, rfl, (submit_eq_ok_iff_of_knows knows valid threads schedule results).mp came⟩
    | error fault =>
      obtain ⟨moves, _, same⟩ :=
        submit_mirrored knows valid threads schedule packets (.empty inputs.cacheSpec)
      rw [same] at came
      obtain ⟨packet, member, failed⟩ := submit_fault knows.steady (quiet.served_empty inputs) came
      exact .inr ⟨packet, member, fault, rfl, failed⟩
  · rintro (⟨results, rfl, every⟩ | ⟨packet, member, fault, rfl, failed⟩)
    · exact ⟨[], (submit_eq_ok_iff_of_knows knows valid threads [] results).mpr every⟩
    · obtain ⟨position, there⟩ := List.getElem?_of_mem member
      have ran := (knows.settled packet).run_eq valid
      exact ⟨[⟨0, position⟩], submit_first enough there (ran.trans failed)⟩

/-- A job whose packets are taken in order is answered alike on all agreed caches. -/
theorem submit_inOrder_eq (knows : Knows agreement inputs evaluator quiet) (valid : agreement.valid cache)
    (valid' : agreement.valid other) (threads : Nat) :
    (submit threads evaluator [] inputs packets cache).1 = (submit threads evaluator [] inputs packets other).1 := by
  obtain ⟨moves, none, same⟩ := submit_mirrored knows valid threads [] packets (.empty inputs.cacheSpec)
  obtain ⟨moves', none', same'⟩ := submit_mirrored knows valid' threads [] packets (.empty inputs.cacheSpec)
  rw [same, same', List.sublist_nil.mp none, List.sublist_nil.mp none']

end Answers

end LocalExecutor

end Accessibility
