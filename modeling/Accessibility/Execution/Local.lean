import Accessibility.Execution.Executor

/-! Execution within the process: a number of workers read the job's inputs in place
and share one cache, which lives as long as the executor. A free worker takes any of
the packets that wait; one that evaluates a packet has the cache serve one request of
the evaluation after the other, while the others do the same. The first fault to be
noted is the job's, and once there is one no further packet has to be taken.

The workers are a transition system: `step` makes one move, and a list of moves is an
interleaving. `submit` makes the moves of a given list and then lets every worker
finish in turn; without a list, packets are taken in order, and the first that fails
ends the job. -/
namespace Accessibility.LocalExecutor

/-- Why there is no executor. -/
inductive Refusal where
  | noThreads
  /-- The system sets up no pool for the workers. -/
  | noPool (text : String)
  deriving DecidableEq, Repr

def Refusal.fault : Refusal → Fault
  | noThreads => .configuration "local executor needs at least one thread"
  | noPool text => .configuration s!"failed to build worker pool: {text}"

/-- Where a worker stands. -/
inductive Worker where
  | free
  /-- Evaluates the packet at a position of the job's list. -/
  | busy (position : Nat) (program : Evaluation PacketResult)

/-- The job under way. -/
structure State where
  /-- Packets that nobody has taken, with their positions in the job's list. -/
  waiting : List (Packet × Nat)
  workers : List Worker
  /-- The results that are there, each at the position of its packet. -/
  results : List (Option PacketResult)
  /-- The fault that ends the job. -/
  fault : Option Fault
  cache : UtilityCache

/-- A move: the worker that makes it, and which of the waiting packets it takes if it
is free. -/
structure Move where
  worker : Nat
  choice : Nat
  deriving DecidableEq, Repr

def initial (threads : Nat) (packets : List Packet) (cache : UtilityCache) : State where
  waiting := packets.zipIdx
  workers := List.replicate threads .free
  results := packets.map fun _ => none
  fault := none
  cache := cache

/-- The evaluation of a packet. -/
def evaluation (evaluator : Evaluator) (inputs : JobInputs) (packet : Packet) :
    Evaluation PacketResult :=
  packet.compute inputs.zones.zoneIds evaluator (.ofJob inputs)

/-- The fault that ends a job with one more fault: the first, but a breakdown before
all others. -/
def firstFault (noted : Option Fault) (fault : Fault) : Fault :=
  if fault = .outOfBounds then fault else noted.getD fault

/-- Notes what became of the packet at a position. -/
def report (state : State) (position : Nat) : Outcome PacketResult → State
  | .ok result => { state with results := state.results.set position (some result) }
  | .error fault => { state with fault := some (firstFault state.fault fault) }

/-- Makes one move. A number that names no worker or no packet changes nothing. -/
def step (evaluator : Evaluator) (inputs : JobInputs) (move : Move) (state : State) : State :=
  match state.workers[move.worker]? with
  | none => state
  | some .free =>
    match state.waiting[move.choice]? with
    | none => state
    | some (packet, position) =>
      let worker := Worker.busy position (evaluation evaluator inputs packet)
      { state with
        waiting := state.waiting.eraseIdx move.choice
        workers := state.workers.set move.worker worker }
  | some (.busy position (.done outcome)) =>
    report { state with workers := state.workers.set move.worker .free } position outcome
  | some (.busy position program) =>
    let (program, cache) := program.advance state.cache
    { state with workers := state.workers.set move.worker (.busy position program), cache }

/-- Runs an interleaving. -/
def runSchedule (evaluator : Evaluator) (inputs : JobInputs) (schedule : List Move)
    (state : State) : State :=
  schedule.foldl (fun state move => step evaluator inputs move state) state

/-- Lets a worker finish the packet it evaluates. -/
def finishWorker (worker : Nat) (state : State) : State :=
  match state.workers[worker]? with
  | some (.busy position program) =>
    let (outcome, cache) := program.run state.cache
    report { state with workers := state.workers.set worker .free, cache } position outcome
  | _ => state

/-- Evaluates the packets that wait, in order, up to the first fault. -/
def finishPackets (evaluator : Evaluator) (inputs : JobInputs) :
    List (Packet × Nat) → State → State
  | [], state => { state with waiting := [] }
  | (packet, position) :: rest, state =>
    if state.fault.isSome then { state with waiting := [] }
    else
      let (outcome, cache) := (evaluation evaluator inputs packet).run state.cache
      finishPackets evaluator inputs rest
        (report { state with waiting := rest, cache } position outcome)

/-- Brings a job under way to its end: the workers finish one after the other. -/
def finish (evaluator : Evaluator) (inputs : JobInputs) (state : State) : State :=
  let idle := (List.range state.workers.length).foldl (fun state worker => finishWorker worker state) state
  finishPackets evaluator inputs idle.waiting idle

/-- The answer of a job: its fault, or the results in the order of the packets. -/
def State.answer (state : State) : Outcome (List PacketResult) :=
  match state.fault with
  | some fault => .error fault
  | none => .ok (state.results.filterMap id)

/-- Evaluates packets over one cache, under a given interleaving of the workers. -/
def submit (threads : Nat) (evaluator : Evaluator) (schedule : List Move) (inputs : JobInputs)
    (packets : List Packet) : StateM UtilityCache (Outcome (List PacketResult)) := fun cache =>
  let under := runSchedule evaluator inputs schedule (initial threads packets cache)
  let final := finish evaluator inputs under
  (final.answer, final.cache)

/-- An executor with the given number of workers, for which there is a pool; its state is their
cache. -/
def create (threads : Nat) (evaluator : Evaluator) (schedule : List Move := []) :
    Outcome (Executor UtilityCache) :=
  if threads = 0 then .error Refusal.noThreads.fault
  else
    .ok {
      name := "local"
      submit := fun packets inputs => submit threads evaluator schedule inputs packets }

end Accessibility.LocalExecutor
