import Accessibility.Execution.Distributed

/-! A transport within the process: nodes that pull tasks from one queue. Each node
decodes the bundle for itself, keeps a cache of its own for the job, and sends its
replies as frames. A flag shared by all nodes is raised by a failed packet or a
failed node; a node that sees it raised drops the task it has just taken and stops.

The nodes are a transition system: `step` takes one node one atomic step further,
whatever the others do, so a list of node numbers is an interleaving. A job runs a given
interleaving and then lets the nodes take turns until all have stopped. The system starts
every node; that it may have no thread for one, which is a fault of the distribution as
well, is left out. -/
namespace Accessibility.Loopback

/-- What the nodes of a job are given. -/
structure Setup where
  nodes : Nat
  evaluator : Evaluator
  /-- Nodes that are down. -/
  unreachable : List Nat
  bundle : List UInt8

/-- Why a node fails, or there are no nodes. -/
inductive Refusal where
  | noNodes
  | unreachable (node : Nat)
  | foreignTask (node : Nat) (held given : UInt64)
  /-- The node's evaluation ran off a table. -/
  | brokenDown
  deriving DecidableEq, Repr

def Refusal.fault : Refusal → Fault
  | noNodes => .configuration "distributed execution needs at least one node"
  | unreachable node => .distribution s!"node {node} is unreachable"
  | foreignTask node held given =>
    .distribution s!"node {node} holds job {held} but got a task for job {given}"
  | brokenDown => .distribution "node panicked"

/-- What a node holds while it works: the job, the zones, its cache and the number of
packets it has answered. -/
structure Desk where
  job : JobBundle
  zoneIds : Array UInt32
  cache : UtilityCache
  answered : Nat

/-- Where a node stands. -/
inductive Node where
  /-- Not started. -/
  | starting
  /-- About to take a task from the queue. -/
  | waiting (desk : Desk)
  /-- Has taken a task and not yet looked at the flag. -/
  | holding (desk : Desk) (task : PacketTask)
  /-- About to evaluate a task. -/
  | evaluating (desk : Desk) (task : PacketTask)
  /-- Holds a failed outcome and has not yet raised the flag. -/
  | alarming (desk : Desk) (task : PacketTask) (outcome : TaskOutcome)
  /-- About to send the reply to a task. -/
  | replying (desk : Desk) (task : PacketTask) (outcome : TaskOutcome)
  /-- Has failed and not yet raised the flag. -/
  | failing (fault : Fault)
  /-- Has stopped, with its fault or the number of packets it answered. -/
  | ended (result : Outcome Nat)

/-- The job under way. -/
structure State where
  queue : List PacketTask
  /-- Frames in the order of their arrival. -/
  replies : List (List UInt8)
  /-- The flag that stops every node. -/
  abort : Bool
  nodes : List Node

def initial (setup : Setup) (tasks : List PacketTask) : State where
  queue := tasks
  replies := []
  abort := false
  nodes := List.replicate setup.nodes .starting

/-- What a node does when it starts. -/
def opening (setup : Setup) (node : Nat) : Node :=
  if node ∈ setup.unreachable then .failing (Refusal.unreachable node).fault
  else
    match JobBundle.decode setup.bundle with
    | .error fault => .failing fault
    | .ok job =>
      match UtilityCache.create job.inputs.cacheSpec with
      | .error fault => .failing fault
      | .ok cache =>
        .waiting { job, zoneIds := job.inputs.zones.zoneIds, cache, answered := 0 }

/-- Evaluates a task. A node whose evaluation runs off a table breaks down at once,
without raising the flag. -/
def evaluateTask (setup : Setup) (desk : Desk) (task : PacketTask) : Node :=
  let context := Context.ofJob desk.job.inputs
  let (result, cache) := (task.packet.compute desk.zoneIds setup.evaluator context).run desk.cache
  let desk := { desk with cache }
  match result with
  | .error .outOfBounds => .ended (.error Refusal.brokenDown.fault)
  | result =>
    let outcome := TaskOutcome.ofResult result
    if outcome.isFailed then .alarming desk task outcome else .replying desk task outcome

/-- A node's reply to a task. -/
def replyTo (node : Nat) (desk : Desk) (task : PacketTask) (outcome : TaskOutcome) : TaskReply where
  jobId := desk.job.jobId
  packetId := task.packet.id
  node := node.toUInt64
  outcome := outcome

/-- One atomic step of a node: its next stand, and what becomes of the shared queue,
replies and flag. A node that has ended stays where it is. -/
def advance (setup : Setup) (node : Nat) (state : State) : Node → State × Node
  | .starting => (state, opening setup node)
  | .waiting desk =>
    match state.queue with
    | [] => (state, .ended (.ok desk.answered))
    | task :: rest => ({ state with queue := rest }, .holding desk task)
  | .holding desk task =>
    if state.abort then (state, .ended (.ok desk.answered))
    else if task.jobId ≠ desk.job.jobId then
      (state, .failing (Refusal.foreignTask node desk.job.jobId task.jobId).fault)
    else (state, .evaluating desk task)
  | .evaluating desk task => (state, evaluateTask setup desk task)
  | .alarming desk task outcome => ({ state with abort := true }, .replying desk task outcome)
  | .replying desk task outcome =>
    ({ state with replies := state.replies ++ [(replyTo node desk task outcome).encode] },
      .waiting { desk with answered := desk.answered + 1 })
  | .failing fault => ({ state with abort := true }, .ended (.error fault))
  | .ended result => (state, .ended result)

/-- Takes one node one step further; a number that names no node changes nothing. -/
def step (setup : Setup) (node : Nat) (state : State) : State :=
  match state.nodes[node]? with
  | none => state
  | some stand =>
    let (state, stand) := advance setup node state stand
    { state with nodes := state.nodes.set node stand }

/-- Runs an interleaving. -/
def runSchedule (setup : Setup) (schedule : List Nat) (state : State) : State :=
  schedule.foldl (fun state node => step setup node state) state

def Node.isEnded : Node → Bool
  | .ended _ => true
  | _ => false

/-- Whether every node has stopped. -/
def State.isFinished (state : State) : Bool := state.nodes.all Node.isEnded

/-- The number of packets a node answered; a node that failed reports none. -/
def Node.answered : Node → Nat
  | .ended (.ok count) => count
  | _ => 0

/-- The first fault among the nodes, in the order of their numbers. -/
def State.fault? (state : State) : Option Fault :=
  state.nodes.findSome? fun
    | .ended (.error fault) => some fault
    | _ => none

/-- The answer of a finished job: the fault of the first failed node, or all replies
in the order of their arrival. -/
def State.answer (state : State) : Outcome (List TaskReply) :=
  match state.fault? with
  | some fault => .error fault
  | none => state.replies.mapM TaskReply.decode

/-- Packets each node answered. -/
def State.answeredPerNode (state : State) : List Nat := state.nodes.map Node.answered

/-- Most steps the nodes can take in all: five for each task, and four for each node
to start, find the queue empty and stop. -/
def stepBound (setup : Setup) (tasks : List PacketTask) : Nat :=
  5 * tasks.length + 4 * setup.nodes

/-- Lets every node take one step in turn, until all have stopped or the rounds are
over. -/
def takeTurns (setup : Setup) : Nat → State → State
  | 0, state => state
  | rounds + 1, state =>
    if state.isFinished then state
    else takeTurns setup rounds (runSchedule setup (List.range setup.nodes) state)

/-- The state in which a job ends that begins with the given interleaving. Each round
of turns moves every node that has not stopped, so the bound on steps is one on
rounds. -/
def finalState (setup : Setup) (schedule : List Nat) (tasks : List PacketTask) : State :=
  takeTurns setup (stepBound setup tasks) (runSchedule setup schedule (initial setup tasks))

/-- The transport over a number of nodes; its state is what each node answered in
the last job. -/
def transport (nodes : Nat) (evaluator : Evaluator) (unreachable : List Nat)
    (schedule : List Nat := []) : Outcome (Transport (List Nat)) :=
  if nodes = 0 then .error Refusal.noNodes.fault
  else
    .ok {
      nodeCount := nodes
      runJob := fun bundle tasks _ =>
        let final := finalState { nodes, evaluator, unreachable, bundle } schedule tasks
        (final.answer, final.answeredPerNode) }

end Accessibility.Loopback
