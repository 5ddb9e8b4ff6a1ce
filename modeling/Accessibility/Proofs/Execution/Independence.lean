import Accessibility.Proofs.Evaluation.Ledger
import Accessibility.Proofs.Execution.Mirror
import Accessibility.Proofs.Execution.Moves
import Accessibility.Proofs.Execution.Renumber

/-! What a job owes to the jobs before it. A distributed executor sets up its caches anew for
every job, and the number it gives the job does not show. Workers in the process keep one cache
for as long as their executor lives, and it does not know the inputs that its impedances came
from. They answer a job as if it were the first if none of those before it gave another impedance
to a pair that it consults (`submit_after_jobs`); where zones have moved in between they do not
(`submit_moved_zone`). -/
namespace Accessibility

/-- A job as it was submitted: its packets, its inputs and the interleaving it ran under. -/
structure Submission (τ : Type) where
  packets : List Packet
  inputs : JobInputs
  schedule : τ

namespace Executor

variable {σ τ : Type}

/-- The state of an executor after some jobs. -/
def stateAfter (executor : τ → Executor σ) (state : σ) (jobs : List (Submission τ)) : σ :=
  jobs.foldl (fun state job => ((executor job.schedule).submit job.packets job.inputs state).2) state

/-- An answer that a job has under some interleaving. -/
def MayAnswer (executor : τ → Executor σ) (packets : List Packet) (inputs : JobInputs) (state : σ)
    (answer : Outcome (List PacketResult)) : Prop :=
  ∃ schedule, ((executor schedule).submit packets inputs state).1 = answer

end Executor

namespace LocalExecutor

variable {agreement : CacheAgreement} {evaluator : Evaluator} {inputs : JobInputs} {state : State}
  {cache : UtilityCache}

/-- A worker whose program keeps an agreement from a cache on. -/
def Worker.Minds (agreement : CacheAgreement) (cache : UtilityCache) : Worker → Prop
  | .free => True
  | .busy _ program => program.Keeps agreement (fun _ _ => True) cache

theorem Worker.minds_free (agreement : CacheAgreement) (cache : UtilityCache) : Worker.free.Minds agreement cache :=
  trivial

theorem Worker.Minds.later {current : UtilityCache} {worker : Worker} (minds : worker.Minds agreement cache)
    (grows : agreement.grows cache current) : worker.Minds agreement current := by
  cases worker with
  | free => trivial
  | busy position program => exact Evaluation.Keeps.later minds grows

/-- A job under way over an agreed cache, which its workers leave so. -/
structure Minding (agreement : CacheAgreement) (state : State) : Prop where
  valid : agreement.valid state.cache
  workers : ∀ worker ∈ state.workers, worker.Minds agreement state.cache

theorem minding_initial (valid : agreement.valid cache) (threads : Nat) (packets : List Packet) :
    Minding agreement (initial threads packets cache) := by
  refine ⟨valid, fun worker member => ?_⟩
  rw [(List.mem_replicate.mp member).2]
  exact Worker.minds_free ..

theorem Minding.setWorker {worker : Worker} (minding : Minding agreement state) (index : Nat)
    (valid : agreement.valid cache) (grows : agreement.grows state.cache cache)
    (minds : worker.Minds agreement cache) :
    Minding agreement { state with workers := state.workers.set index worker, cache } := by
  refine ⟨valid, fun other member => ?_⟩
  obtain there | rfl := List.mem_or_eq_of_mem_set member
  · exact (minding.workers other there).later grows
  · exact minds

theorem Minding.report (minding : Minding agreement state) (position : Nat) (outcome : Outcome PacketResult) :
    Minding agreement (report state position outcome) := by
  cases outcome <;> exact ⟨minding.valid, minding.workers⟩

/-- Whichever worker moves, only served requests change the cache, and they keep the agreement. -/
theorem Minding.step (minding : Minding agreement state)
    (minds : ∀ packet, (evaluation evaluator inputs packet).Minds agreement) (move : Move) :
    Minding agreement (step evaluator inputs move state) := by
  unfold LocalExecutor.step
  split
  next => exact minding
  next =>
    split
    next => exact minding
    next packet position _ =>
      have begun : (Worker.busy position (evaluation evaluator inputs packet)).Minds agreement state.cache :=
        minds packet state.cache minding.valid
      have working := minding.setWorker move.worker minding.valid (agreement.refl _) begun
      exact ⟨working.valid, working.workers⟩
  next =>
    have freed := minding.setWorker move.worker minding.valid (agreement.refl _) (Worker.minds_free ..)
    exact freed.report _ _
  next position program _ busy =>
    have keeps : program.Keeps agreement (fun _ _ => True) state.cache :=
      minding.workers _ (List.mem_of_getElem? busy)
    obtain ⟨valid, grows, goesOn⟩ := keeps.advance minding.valid
    exact minding.setWorker move.worker valid grows goesOn

/-- A job whose evaluations keep an agreement keeps it, whatever its answer. -/
theorem valid_submit (minds : ∀ packet, (evaluation evaluator inputs packet).Minds agreement)
    (valid : agreement.valid cache) {threads : Nat} (some_threads : threads ≠ 0) (schedule : List Move)
    (packets : List Packet) :
    agreement.valid (submit threads evaluator schedule inputs packets cache).2 := by
  have keeps : ∀ state move, Minding agreement state → Minding agreement (step evaluator inputs move state) :=
    fun _ move minding => minding.step minds move
  obtain ⟨last, ended, minding, _⟩ := submit_induction keeps some_threads schedule
    (minding_initial valid threads packets)
  rw [ended]
  exact minding.valid

end LocalExecutor

namespace Evaluator.Gravity
open Executor LocalExecutor

variable {gravity : Gravity} {family others : List JobInputs} {inputs : JobInputs} {spec : CacheSpec}
  {threads : Nat} {cache : UtilityCache} {workers : List Move → Executor UtilityCache}

theorem knows_informed (sized : spec.validate = .ok ()) (agrees : Agrees gravity inputs others) :
    Knows (.writeOnce spec (RightAmong gravity (inputs :: others))) inputs (.ofGravity gravity)
      ((Evaluator.ofGravity gravity).informed spec) :=
  LocalExecutor.knows_informed (CacheAgreement.writeOnce_empty spec _) fun _ listed =>
    exists_settled_accessibility sized agrees listed

theorem minds_evaluation (sized : spec.validate = .ok ()) (member : inputs ∈ family) (packet : Packet) :
    (evaluation (.ofGravity gravity) inputs packet).Minds (.writeOnce spec (RightAmong gravity family)) :=
  Packet.kind_compute (Evaluation.composes_minds _) packet fun _ listed =>
    minds_accessibility sized member listed

/-- Jobs leave nothing behind but impedances that one of them gives to a pair it consults. -/
theorem valid_stateAfter (created : ∀ moves, create threads (.ofGravity gravity) moves = .ok (workers moves))
    (sized : spec.validate = .ok ()) {jobs : List (Submission (List Move))}
    (among : ∀ job ∈ jobs, job.inputs ∈ family)
    (valid : (CacheAgreement.writeOnce spec (RightAmong gravity family)).valid cache) :
    (CacheAgreement.writeOnce spec (RightAmong gravity family)).valid (stateAfter workers cache jobs) := by
  induction jobs generalizing cache with
  | nil => exact valid
  | cons job jobs ih =>
    apply ih fun later there => among later (List.mem_cons_of_mem _ there)
    have kept := valid_submit (minds_evaluation sized (among job (List.mem_cons_self ..))) valid
      (some_threads_of_create (created [])) job.schedule job.packets
    rwa [← submit_of_create (created job.schedule)] at kept

end Evaluator.Gravity

namespace Executor
open Evaluator.Gravity LocalExecutor

variable {gravity : Evaluator.Gravity} {threads nodes : Nat} {spec : CacheSpec} {cache : UtilityCache}
  {workers : List Move → Executor UtilityCache} {unreachable : List Nat}
  {carrier : List Nat → Transport (List Nat)}

/-- Whatever jobs an executor had before, it answers a job as a new one does. Over nodes this
holds of all jobs. Workers in the process may give the same answers, the same results whatever
the interleavings, and if they take the packets in order the very same answer, provided that no
job before gave another impedance to a pair that this one consults as well; zones that stay where
they are see to that. -/
theorem submit_after_jobs
    (created : ∀ moves, create threads (.ofGravity gravity) moves = .ok (workers moves))
    (made : UtilityCache.create spec = .ok cache)
    (carried : ∀ turns, Loopback.transport nodes (.ofGravity gravity) unreachable turns = .ok (carrier turns)) :
    (∀ (earlier : List (Submission (List Move))) (packets : List Packet) (inputs : JobInputs),
      Agrees gravity inputs (earlier.map Submission.inputs) →
      (∀ answer, MayAnswer workers packets inputs (stateAfter workers cache earlier) answer ↔
        MayAnswer workers packets inputs cache answer) ∧
      (∀ moves moves' results,
        ((workers moves).submit packets inputs (stateAfter workers cache earlier)).1 = .ok results ↔
          ((workers moves').submit packets inputs cache).1 = .ok results) ∧
      ((workers []).submit packets inputs (stateAfter workers cache earlier)).1 =
        ((workers []).submit packets inputs cache).1) ∧
    ∀ (alternatives : UInt64) (earlier : List (Submission (List Nat))) (packets : List Packet)
      (inputs : JobInputs) (turns last : List Nat),
      let executor := fun turns => DistributedExecutor.create (carrier turns) alternatives
      ((executor turns).submit packets inputs (stateAfter executor (DistributedExecutor.start last) earlier)).1 =
        ((executor turns).submit packets inputs (DistributedExecutor.start last)).1 := by
  obtain ⟨sized, rfl⟩ := (UtilityCache.create_eq_ok_iff spec cache).mp made
  constructor
  · intro earlier packets inputs agrees
    have enough : threads ≠ 0 := by
      rintro rfl
      cases created []
    have knows := Evaluator.Gravity.knows_informed sized agrees
    have fresh := CacheAgreement.writeOnce_empty spec (RightAmong gravity (inputs :: earlier.map Submission.inputs))
    have later := valid_stateAfter created sized
      (fun job there => List.mem_cons_of_mem _ (List.mem_map_of_mem there)) fresh
    have submits : ∀ moves, (workers moves).submit packets inputs =
        LocalExecutor.submit threads (.ofGravity gravity) moves inputs packets :=
      fun moves => submit_of_create (created moves)
    refine ⟨fun answer => ?_, fun moves moves' results => ?_, ?_⟩
    · simp only [MayAnswer, submits]
      rw [exists_submit_eq_iff knows later enough, exists_submit_eq_iff knows fresh enough]
    · simp only [submits]
      rw [submit_eq_ok_iff_of_knows knows later, submit_eq_ok_iff_of_knows knows fresh]
    · simp only [submits]
      exact submit_inOrder_eq knows later fresh threads
  · intro alternatives earlier packets inputs turns last
    exact DistributedExecutor.submit_eq_of_dispatch (carried turns) _ _

/-- The two zones and one between them, with more to reach and another constant. -/
def threeZones : JobInputs where
  zones := ⟨["jobs"], #[⟨1, .zero, .zero, ⟨0, 0⟩, [.one]⟩, ⟨2, .one, .one, ⟨0, 0⟩, [.zero]⟩,
    ⟨3, ⟨0x4008000000000000⟩, ⟨0x4010000000000000⟩, ⟨0, 0⟩, [.one]⟩]⟩
  sizeTerms := ⟨["jobs"], 3, #[.zero, .one, .zero, .one], #[false, true, false, true]⟩
  constants := ⟨["auto"], #[⟨0x4000000000000000⟩, .one]⟩
  cacheSpec := ⟨3, 0, 1, 1⟩

theorem submit_after_jobs_threeZones :
    let gravity : Evaluator.Gravity := ⟨["jobs"], .one, 0, 0, 0⟩
    let earlier : Submission (List Move) := ⟨[⟨1, 0, 1⟩], twoZones, [⟨1, 0⟩, ⟨1, 0⟩]⟩
    let sent : Submission (List Nat) := ⟨[⟨1, 0, 1⟩], twoZones, [0, 1, 1]⟩
    let packets : List Packet := [⟨1, 0, 1⟩, ⟨2, 2, 2⟩]
    ∃ (workers : List Move → Executor UtilityCache) (carrier : List Nat → Transport (List Nat)),
      (∀ moves, create 2 (.ofGravity gravity) moves = .ok (workers moves)) ∧
      (∀ turns, Loopback.transport 2 (.ofGravity gravity) [] turns = .ok (carrier turns)) ∧
      ((workers []).submit packets threeZones (stateAfter workers (.empty ⟨3, 0, 1, 1⟩) [earlier])).1 =
        ((workers []).submit packets threeZones (.empty ⟨3, 0, 1, 1⟩)).1 ∧
      let executor := fun turns => DistributedExecutor.create (carrier turns) 1
      ((executor [1]).submit packets threeZones
          (stateAfter executor (DistributedExecutor.start []) [sent])).1 =
        ((executor [1]).submit packets threeZones (DistributedExecutor.start [])).1 := by
  intro gravity earlier sent packets
  have created : ∀ moves, create 2 (.ofGravity gravity) moves = .ok {
      name := "local"
      submit := fun packets inputs =>
        LocalExecutor.submit 2 (.ofGravity gravity) moves inputs packets } := fun _ => rfl
  have carried : ∀ turns, Loopback.transport 2 (.ofGravity gravity) [] turns = .ok {
      nodeCount := 2
      runJob := fun bundle tasks _ =>
        let final := Loopback.finalState ⟨2, .ofGravity gravity, [], bundle⟩ turns tasks
        (final.answer, final.answeredPerNode) } := fun _ => rfl
  have stay : (threeZones.zones.zoneIds.toList.all fun id =>
      decide (id ∈ twoZones.zones.zoneIds → place threeZones.zones id = place twoZones.zones id)) = true := by
    decide +kernel
  have agrees : Agrees gravity threeZones ([earlier].map Submission.inputs) := by
    apply agrees_of_places
    intro other among id listed listed'
    cases List.mem_singleton.mp among
    exact of_decide_eq_true (List.all_eq_true.mp stay id (Array.mem_toList_iff.mpr listed)) listed'
  have made : UtilityCache.create ⟨3, 0, 1, 1⟩ = .ok (.empty ⟨3, 0, 1, 1⟩) := rfl
  obtain ⟨within, between⟩ := submit_after_jobs created made carried
  exact ⟨_, _, created, carried, (within [earlier] packets threeZones agrees).2.2,
    between 1 [sent] packets threeZones [1] []⟩

/-- A job of one packet, without moves that are given: the packet is evaluated. -/
theorem submit_single {threads : Nat} (evaluator : Evaluator) (inputs : JobInputs) (packet : Packet)
    (cache : UtilityCache) :
    LocalExecutor.submit threads evaluator [] inputs [packet] cache =
      (((evaluation evaluator inputs packet).run cache).1.map ([·]),
        ((evaluation evaluator inputs packet).run cache).2) := by
  have idle : Idle (initial threads [packet] cache) := by
    intro worker position program busy
    have member := List.mem_of_getElem? busy
    simp [initial] at member
  rw [LocalExecutor.submit, runSchedule, List.foldl_nil, finish, idle.finishWorkers]
  cases came : ((evaluation evaluator inputs packet).run cache).1 with
  | ok result => simp [initial, finishPackets, came, report, State.answer, Except.map]
  | error fault => simp [initial, finishPackets, came, report, firstFault, State.answer, Except.map]

/-- Two zones, the second some way off to the east and with hardly anything to reach. -/
def zonesApart (way : Double) : JobInputs where
  zones := ⟨[], #[⟨1, .zero, .zero, ⟨0, 0⟩, []⟩, ⟨3, way, .zero, ⟨0, 0⟩, []⟩]⟩
  sizeTerms := ⟨["jobs"], 3, #[.zero, .zero, .zero, ⟨0x3C30000000000000⟩], #[false, false, false, true]⟩
  constants := ⟨["auto"], #[.one, .one, .one, .one]⟩
  cacheSpec := ⟨3, 0, 1, 1⟩

/-- One worker evaluates a zone while the other zone is in the same place, and again when that
zone is a thousand away. The second time nothing can be reached; but behind the first job the
worker finds the impedance of the same place, and gives the answer of the first. -/
theorem submit_moved_zone :
    let near := zonesApart .zero
    let far := zonesApart ⟨0x408F400000000000⟩
    ∃ executor, create 1 (.ofGravity ⟨["jobs"], .one, 0, 0, 0⟩) [] = .ok executor ∧
      let new := UtilityCache.empty ⟨3, 0, 1, 1⟩
      let behind := (executor.submit [⟨1, 0, 0⟩] far (executor.submit [⟨1, 0, 0⟩] near new).2).1
      let alone := (executor.submit [⟨1, 0, 0⟩] far new).1
      behind = .ok [⟨1, 0, 0, 1, #[⟨0x21800000⟩]⟩] ∧ alone = .ok [⟨1, 0, 0, 1, #[.zero]⟩] ∧ behind ≠ alone := by
  intro near far
  refine ⟨_, rfl, ?_⟩
  intro new behind alone
  have sized : CacheSpec.validate ⟨3, 0, 1, 1⟩ = .ok () := rfl
  let program := evaluation (.ofGravity ⟨["jobs"], .one, 0, 0, 0⟩)
  -- Over ledgers the three evaluations can be computed.
  obtain ⟨_, left⟩ := Evaluation.run_ledger (UtilityCache.tracks_empty _) sized (program near ⟨1, 0, 0⟩)
  obtain ⟨later, _⟩ := Evaluation.run_ledger left sized (program far ⟨1, 0, 0⟩)
  obtain ⟨fresh, _⟩ := Evaluation.run_ledger (UtilityCache.tracks_empty _) sized (program far ⟨1, 0, 0⟩)
  have second : behind = .ok [⟨1, 0, 0, 1, #[⟨0x21800000⟩]⟩] := by
    simp only [behind, submit_single]
    rw [later]
    decide +kernel
  have first : alone = .ok [⟨1, 0, 0, 1, #[.zero]⟩] := by
    simp only [alone, submit_single]
    rw [fresh]
    decide +kernel
  refine ⟨second, first, ?_⟩
  rw [second, first]
  decide

end Executor

end Accessibility
