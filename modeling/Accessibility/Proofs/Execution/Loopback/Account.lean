import Mathlib.Data.List.Perm.Basic
import Accessibility.Execution.Loopback
import Accessibility.Proofs.Cache.Store
import Accessibility.Proofs.Packet.Answer
import Accessibility.Proofs.Wire.Frame

/-! The account of a job over one queue. At every moment a task is queued, or one node
holds it, or it has been answered with what its packet comes to, or it has been dropped;
and no task is dropped before a fault is on its way, as a failed node or as a failed
reply (`Sound`). Every step of every node keeps the account (`Accounted.step`), so every
interleaving does. -/
namespace Accessibility.Loopback

variable {setup : Setup} {job : JobBundle} {tasks : List PacketTask} {index : Nat}
  {state : State} {node : Node}

/-! ## One node -/

/-- A desk laid out for the job, whose cache has served nothing else. -/
structure Desk.Sound (setup : Setup) (job : JobBundle) (desk : Desk) : Prop where
  same : desk.job = job
  zones : desk.zoneIds = job.inputs.zones.zoneIds
  served : setup.evaluator.Served job.inputs desk.cache

/-- What the packet of a task comes to, as it is reported. -/
def expected (setup : Setup) (job : JobBundle) (task : PacketTask) : TaskOutcome :=
  .ofResult (task.packet.outcome setup.evaluator job.inputs)

/-- What a node can fail for. -/
inductive Failing (setup : Setup) (job : JobBundle) (tasks : List PacketTask) (index : Nat) :
    Fault → Prop where
  | unreachable : index ∈ setup.unreachable →
    Failing setup job tasks index (Refusal.unreachable index).fault
  | foreignTask (task : PacketTask) : index ∉ setup.unreachable → task ∈ tasks →
    task.jobId ≠ job.jobId →
    Failing setup job tasks index (Refusal.foreignTask index job.jobId task.jobId).fault
  | brokenDown (task : PacketTask) : index ∉ setup.unreachable → task ∈ tasks →
    task.packet.outcome setup.evaluator job.inputs = .error .outOfBounds →
    Failing setup job tasks index Refusal.brokenDown.fault

/-- A node stands where its work on the job can have taken it. -/
def Node.Sound (setup : Setup) (job : JobBundle) (tasks : List PacketTask) (index : Nat) :
    Node → Prop
  | .starting => True
  | .waiting desk => index ∉ setup.unreachable ∧ desk.Sound setup job
  | .holding desk _ => index ∉ setup.unreachable ∧ desk.Sound setup job
  | .evaluating desk task =>
    index ∉ setup.unreachable ∧ desk.Sound setup job ∧ task.jobId = job.jobId
  | .alarming desk task outcome =>
    index ∉ setup.unreachable ∧ desk.Sound setup job ∧ task.jobId = job.jobId ∧
      outcome = expected setup job task ∧ outcome.isFailed = true
  | .replying desk task outcome =>
    index ∉ setup.unreachable ∧ desk.Sound setup job ∧ task.jobId = job.jobId ∧
      outcome = expected setup job task
  | .failing fault => Failing setup job tasks index fault
  | .ended (.error fault) => Failing setup job tasks index fault
  | .ended (.ok _) => index ∉ setup.unreachable

/-- The task that a node has taken and neither answered nor dropped. -/
def Node.held : Node → List PacketTask
  | .holding _ task => [task]
  | .evaluating _ task => [task]
  | .alarming _ task _ => [task]
  | .replying _ task _ => [task]
  | _ => []

/-- The number of tasks that a node has answered so far. -/
def Node.tally : Node → Nat
  | .waiting desk => desk.answered
  | .holding desk _ => desk.answered
  | .evaluating desk _ => desk.answered
  | .alarming desk _ _ => desk.answered
  | .replying desk _ _ => desk.answered
  | .ended (.ok count) => count
  | _ => 0

/-- The node has failed, whether or not it has stopped yet. -/
def Node.Failed : Node → Prop
  | .failing _ => True
  | .ended (.error _) => True
  | _ => False

/-- The node makes sure that the job fails: it has failed itself, or is about to send a
failed reply. -/
def Node.Warns : Node → Prop
  | .failing _ => True
  | .ended (.error _) => True
  | .replying _ _ outcome => outcome.isFailed = true
  | _ => False

theorem Node.Failed.warns (failed : node.Failed) : node.Warns := by
  unfold Node.Failed at failed
  split at failed
  · trivial
  · trivial
  · exact failed.elim

/-- A desk evaluates a task to what its packet comes to on its own. -/
theorem evaluateTask_cases {desk : Desk} (steady : setup.evaluator.Steady job.inputs)
    (sound : desk.Sound setup job) (task : PacketTask) :
    (task.packet.outcome setup.evaluator job.inputs = .error .outOfBounds ∧
        evaluateTask setup desk task = .ended (.error Refusal.brokenDown.fault)) ∨
      ∃ cache, Desk.Sound setup job { desk with cache } ∧
        evaluateTask setup desk task =
          if (expected setup job task).isFailed then
            .alarming { desk with cache } task (expected setup job task)
          else .replying { desk with cache } task (expected setup job task) := by
  have follows :=
    run_follows steady (Packet.compute_follows_outcome steady task.packet) sound.served
  simp only [evaluateTask, expected, sound.same, sound.zones]
  generalize (task.packet.compute job.inputs.zones.zoneIds setup.evaluator
    (.ofJob job.inputs)).run desk.cache = ran at follows ⊢
  obtain ⟨result, cache⟩ := ran
  obtain ⟨came, served⟩ := follows
  simp only at came
  subst came
  by_cases broken : task.packet.outcome setup.evaluator job.inputs = .error .outOfBounds
  · exact .inl ⟨broken, by rw [broken]⟩
  · refine .inr ⟨cache, ⟨rfl, rfl, served⟩, ?_⟩
    split
    next impossible => exact absurd impossible broken
    next => rfl

section Node

variable (opens : JobBundle.decode setup.bundle = .ok job)
  (valid : job.inputs.cacheSpec.validate = .ok ())
  (steady : setup.evaluator.Steady job.inputs)

include opens valid in
theorem opening_eq (index : Nat) :
    opening setup index = if index ∈ setup.unreachable then .failing (Refusal.unreachable index).fault
      else .waiting ⟨job, job.inputs.zones.zoneIds, .empty job.inputs.cacheSpec, 0⟩ := by
  have created := (UtilityCache.create_eq_ok_iff job.inputs.cacheSpec _).mpr ⟨valid, rfl⟩
  simp only [opening, opens, created]

include opens valid steady in
/-- A step leaves a node where its work can have taken it. -/
theorem Node.Sound.advance (sound : node.Sound setup job tasks index)
    (among : ∀ task ∈ node.held, task ∈ tasks) (state : State) :
    (advance setup index state node).2.Sound setup job tasks index := by
  cases node with
  | starting =>
    simp only [Loopback.advance, opening_eq opens valid]
    by_cases down : index ∈ setup.unreachable
    · simp only [down, ↓reduceIte]
      exact .unreachable down
    · simp only [down, ↓reduceIte]
      exact ⟨down, rfl, rfl, setup.evaluator.served_empty job.inputs⟩
  | waiting desk =>
    cases queued : state.queue with
    | nil =>
      simp only [Loopback.advance, queued]
      exact sound.1
    | cons task rest =>
      simp only [Loopback.advance, queued]
      exact sound
  | holding desk task =>
    obtain ⟨up, desk_sound⟩ := sound
    simp only [Loopback.advance]
    split
    · exact up
    · split
      next foreign =>
        rw [desk_sound.same] at foreign ⊢
        exact .foreignTask task up (among task List.mem_cons_self) foreign
      next own =>
        rw [desk_sound.same] at own
        exact ⟨up, desk_sound, not_not.mp own⟩
  | evaluating desk task =>
    obtain ⟨up, desk_sound, own⟩ := sound
    obtain ⟨broken, stops⟩ | ⟨cache, laid, goes⟩ := evaluateTask_cases steady desk_sound task
    · simp only [Loopback.advance, stops]
      exact .brokenDown task up (among task List.mem_cons_self) broken
    · simp only [Loopback.advance, goes]
      split
      next failed => exact ⟨up, laid, own, rfl, failed⟩
      next => exact ⟨up, laid, own, rfl⟩
  | alarming desk task outcome =>
    obtain ⟨up, desk_sound, own, came, _⟩ := sound
    exact ⟨up, desk_sound, own, came⟩
  | replying desk task outcome =>
    obtain ⟨up, desk_sound, _⟩ := sound
    exact ⟨up, desk_sound.same, desk_sound.zones, desk_sound.served⟩
  | failing fault => exact sound
  | ended result => exact sound

end Node

/-- The reply that a node owes to a task. -/
def owed (setup : Setup) (job : JobBundle) (entry : Nat × PacketTask) : TaskReply where
  jobId := job.jobId
  packetId := entry.2.packet.id
  node := entry.1.toUInt64
  outcome := expected setup job entry.2

/-- What the step of one node does to the account of the job: the tasks it answers and
those it drops, and what it knows by then. -/
structure Change (setup : Setup) (job : JobBundle) (index : Nat) (before after : State)
    (old new : Node) (answered : List (Nat × PacketTask)) (lost : List PacketTask) : Prop where
  nodes : after.nodes = before.nodes
  account : (after.queue ++ new.held ++ answered.map Prod.snd ++ lost).Perm (before.queue ++ old.held)
  replies : after.replies = before.replies ++ answered.map fun entry => (owed setup job entry).encode
  own : ∀ entry ∈ answered, entry.1 = index ∧ entry.2.jobId = job.jobId
  tally : ¬ new.Failed → ¬ old.Failed ∧ new.tally = old.tally + answered.length
  queue : before.queue = [] → after.queue = []
  abort : before.abort = true → after.abort = true
  ends : ∀ count, new = .ended (.ok count) → old = new ∨ after.queue = [] ∨ after.abort = true
  lost : lost ≠ [] → after.abort = true ∨ new.Failed
  raises : after.abort = true → before.abort = true ∨ new.Warns
  warned : old.Warns → new.Warns ∨ ∃ entry ∈ answered, (expected setup job entry.2).isFailed = true

section Node

variable (opens : JobBundle.decode setup.bundle = .ok job)
  (valid : job.inputs.cacheSpec.validate = .ok ())
  (steady : setup.evaluator.Steady job.inputs)

include opens valid steady in
theorem Node.Sound.change (sound : node.Sound setup job tasks index) (state : State) :
    ∃ answered lost, Change setup job index state (Loopback.advance setup index state node).1 node
      (Loopback.advance setup index state node).2 answered lost := by
  cases node with
  | starting =>
    refine ⟨[], [], ?_⟩
    simp only [Loopback.advance, opening_eq opens valid]
    by_cases down : index ∈ setup.unreachable <;>
      (simp only [down, ↓reduceIte]; constructor <;> simp [held, tally, Failed, Warns])
  | waiting desk =>
    refine ⟨[], [], ?_⟩
    cases queued : state.queue with
    | nil =>
      simp only [Loopback.advance, queued]
      constructor <;> simp [held, tally, Failed, Warns, queued]
    | cons task rest =>
      simp only [Loopback.advance, queued]
      constructor <;> simp [held, tally, Failed, Warns, queued]
  | holding desk task =>
    obtain ⟨_, desk_sound⟩ := sound
    simp only [Loopback.advance]
    by_cases raised : state.abort = true
    · refine ⟨[], [task], ?_⟩
      simp only [raised, ↓reduceIte]
      constructor <;> simp [held, tally, Failed, Warns, raised]
    · by_cases own : task.jobId = desk.job.jobId
      · refine ⟨[], [], ?_⟩
        simp only [raised, own, ne_eq, not_true_eq_false, ↓reduceIte]
        constructor <;> simp [held, tally, Failed, Warns, raised]
      · refine ⟨[], [task], ?_⟩
        simp only [raised, own, ne_eq, not_false_eq_true, ↓reduceIte]
        constructor <;> simp [held, tally, Failed, Warns, raised]
  | evaluating desk task =>
    obtain ⟨_, desk_sound, _⟩ := sound
    obtain ⟨_, stops⟩ | ⟨cache, _, goes⟩ := evaluateTask_cases steady desk_sound task
    · refine ⟨[], [task], ?_⟩
      simp only [Loopback.advance, stops]
      constructor <;> simp [held, tally, Failed, Warns]
    · refine ⟨[], [], ?_⟩
      simp only [Loopback.advance, goes]
      split <;> constructor <;> simp +contextual [held, tally, Failed, Warns]
  | alarming desk task outcome =>
    obtain ⟨_, _, _, _, failed⟩ := sound
    refine ⟨[], [], ?_⟩
    simp only [Loopback.advance]
    constructor <;> simp [held, tally, Failed, Warns, failed]
  | replying desk task outcome =>
    obtain ⟨_, desk_sound, own, came⟩ := sound
    refine ⟨[(index, task)], [], ?_⟩
    simp only [Loopback.advance]
    constructor <;> simp [held, tally, Failed, Warns, own, came, replyTo, owed, desk_sound.same]
  | failing fault =>
    refine ⟨[], [], ?_⟩
    simp only [Loopback.advance]
    constructor <;> simp [held, tally, Failed, Warns]
  | ended result =>
    refine ⟨[], [], ?_⟩
    simp only [Loopback.advance]
    constructor <;> simp +contextual

end Node

/-! ## All nodes -/

/-- The account of a job under way: which tasks have been answered, by which nodes, and
which have been dropped. -/
structure Sound (setup : Setup) (job : JobBundle) (tasks : List PacketTask) (state : State)
    (answered : List (Nat × PacketTask)) (dropped : List PacketTask) : Prop where
  size : state.nodes.length = setup.nodes
  nodes : ∀ (index : Nat) (node : Node), state.nodes[index]? = some node →
    node.Sound setup job tasks index
  /-- No task is lost and none is there twice. -/
  account : (state.queue ++ state.nodes.flatMap Node.held ++ answered.map Prod.snd ++ dropped).Perm tasks
  replies : state.replies = answered.map fun entry => (owed setup job entry).encode
  own : ∀ entry ∈ answered, entry.1 < setup.nodes ∧ entry.2.jobId = job.jobId
  tally : (∀ node ∈ state.nodes, ¬ node.Failed) → (state.nodes.map Node.tally).sum = answered.length
  /-- A node stops for want of tasks or for the flag. -/
  ends : ∀ count, .ended (.ok count) ∈ state.nodes → state.queue = [] ∨ state.abort = true
  dropped : dropped ≠ [] → state.abort = true ∨ ∃ node ∈ state.nodes, node.Failed
  /-- Behind a raised flag there is a fault that will be seen. -/
  abort : state.abort = true → (∃ node ∈ state.nodes, node.Warns) ∨
    ∃ entry ∈ answered, (expected setup job entry.2).isFailed = true

theorem sound_initial (setup : Setup) (job : JobBundle) (tasks : List PacketTask) :
    Sound setup job tasks (initial setup tasks) [] [] where
  size := List.length_replicate
  nodes index node there := by
    obtain ⟨_, rfl⟩ := List.mem_replicate.mp (List.mem_of_getElem? there)
    trivial
  account := by simp [initial, List.flatMap_replicate, Node.held]
  replies := rfl
  own := by simp
  tally _ := by simp [initial, Node.tally]
  ends count member := by
    obtain ⟨_, impossible⟩ := List.mem_replicate.mp member
    cases impossible
  dropped := by simp
  abort := by simp [initial]

/-- A node in a list, with those before and behind it. -/
theorem split_at {nodes : List Node} (there : nodes[index]? = some node) :
    ∃ front back, nodes = front ++ node :: back ∧ ∀ new, nodes.set index new = front ++ new :: back := by
  obtain ⟨within, rfl⟩ := List.getElem?_eq_some_iff.mp there
  refine ⟨nodes.take index, nodes.drop (index + 1), ?_, fun new => ?_⟩
  · rw [List.getElem_cons_drop, List.take_append_drop]
  · rw [List.set_eq_take_append_cons_drop, if_pos within]

/-- What some node shows, some node shows after a change, or the one that changed has
passed it on. -/
private theorem exists_mem_set {nodes : List Node} {P : Node → Prop} {Q : Prop} {old new : Node}
    (stood : nodes[index]? = some old) (passes : P old → P new ∨ Q) (shown : ∃ node ∈ nodes, P node) :
    (∃ node ∈ nodes.set index new, P node) ∨ Q := by
  obtain ⟨front, back, before, set⟩ := split_at stood
  obtain ⟨node, member, shows⟩ := shown
  rw [before] at member
  rw [set]
  obtain ahead | rfl | behind : node ∈ front ∨ node = old ∨ node ∈ back := by simpa using member
  · exact .inl ⟨node, by simp [ahead], shows⟩
  · exact (passes shows).imp_left fun still => ⟨new, by simp, still⟩
  · exact .inl ⟨node, by simp [behind], shows⟩

/-- A step of one node keeps the account, with what the step adds to it. -/
theorem Sound.update {answered more : List (Nat × PacketTask)} {dropped lost : List PacketTask}
    (sound : Sound setup job tasks state answered dropped) {old new : Node} {after : State}
    (stood : state.nodes[index]? = some old)
    (change : Change setup job index state after old new more lost)
    (new_sound : new.Sound setup job tasks index) :
    Sound setup job tasks { after with nodes := after.nodes.set index new } (answered ++ more)
      (dropped ++ lost) := by
  have within := (List.getElem?_eq_some_iff.mp stood).1
  obtain ⟨front, back, before, set⟩ := split_at stood
  rw [change.nodes]
  constructor
  case size =>
    rw [List.length_set, sound.size]
  case nodes =>
    intro other node there
    simp only at there
    by_cases same : index = other
    · subst same
      rw [List.getElem?_set_self within] at there
      cases there
      exact new_sound
    · rw [List.getElem?_set_ne same] at there
      exact sound.nodes other node there
  case account =>
    have account := sound.account
    have changed := change.account
    rw [before] at account
    simp only [set, List.perm_iff_count] at account changed ⊢
    intro task
    have account := account task
    have changed := changed task
    simp only [List.flatMap_append, List.flatMap_cons, List.map_append, List.count_append] at account changed ⊢
    omega
  case replies =>
    rw [change.replies, sound.replies, List.map_append]
  case own =>
    intro entry member
    obtain earlier | added := List.mem_append.mp member
    · exact sound.own entry earlier
    · obtain ⟨rfl, own⟩ := change.own entry added
      exact ⟨sound.size ▸ within, own⟩
  case tally =>
    intro clear
    simp only [set, List.mem_append, List.mem_cons] at clear ⊢
    obtain ⟨old_clear, tallied⟩ := change.tally (clear new (.inr (.inl rfl)))
    have total := sound.tally fun node member => by
      rw [before] at member
      obtain ahead | rfl | behind : node ∈ front ∨ node = old ∨ node ∈ back := by simpa using member
      · exact clear node (.inl ahead)
      · exact old_clear
      · exact clear node (.inr (.inr behind))
    rw [before] at total
    simp only [List.map_append, List.map_cons, List.sum_append, List.sum_cons, tallied,
      List.length_append] at total ⊢
    omega
  case ends =>
    intro count member
    simp only [set] at member ⊢
    have earlier : .ended (.ok count) ∈ state.nodes → after.queue = [] ∨ after.abort = true :=
      fun there => (sound.ends count there).imp change.queue change.abort
    rw [before] at earlier
    obtain ahead | same | behind : _ ∈ front ∨ .ended (.ok count) = new ∨ _ ∈ back := by
      simpa using member
    · exact earlier (by simp [ahead])
    · obtain rfl | stopped := change.ends count same.symm
      · exact earlier (by simp [same])
      · exact stopped
    · exact earlier (by simp [behind])
  case dropped =>
    intro some_dropped
    by_cases none_lost : lost = []
    · have still : old.Failed → new.Failed ∨ False := fun failed =>
        .inl (not_not.mp fun passed => (change.tally passed).1 failed)
      obtain raised | failed := sound.dropped fun none => some_dropped (by simp [none, none_lost])
      · exact .inl (change.abort raised)
      · exact .inr ((exists_mem_set stood still failed).resolve_right id)
    · exact (change.lost none_lost).imp_right fun failed => ⟨new, by simp [set], failed⟩
  case abort =>
    intro raised
    simp only [List.mem_append]
    obtain earlier | warns := change.raises raised
    · obtain warned | ⟨entry, member, failed⟩ := sound.abort earlier
      · obtain still | ⟨entry, member, failed⟩ := exists_mem_set stood change.warned warned
        · exact .inl still
        · exact .inr ⟨entry, .inr member, failed⟩
      · exact .inr ⟨entry, .inl member, failed⟩
    · exact .inl ⟨new, by simp [set], warns⟩

/-- An account of the job can be given. -/
def Accounted (setup : Setup) (job : JobBundle) (tasks : List PacketTask) (state : State) : Prop :=
  ∃ answered dropped, Sound setup job tasks state answered dropped

/-- The task that a node holds is one of the job's. -/
theorem Sound.among {answered : List (Nat × PacketTask)} {dropped : List PacketTask}
    (sound : Sound setup job tasks state answered dropped) (stood : state.nodes[index]? = some node) :
    ∀ task ∈ node.held, task ∈ tasks := by
  intro task holds
  have member := List.mem_flatMap.mpr ⟨node, List.mem_of_getElem? stood, holds⟩
  exact sound.account.subset (by simp [member])

section Run

variable (opens : JobBundle.decode setup.bundle = .ok job)
  (valid : job.inputs.cacheSpec.validate = .ok ())
  (steady : setup.evaluator.Steady job.inputs)

include opens valid steady in
/-- Every step keeps the account. -/
theorem Accounted.step (accounted : Accounted setup job tasks state) (index : Nat) :
    Accounted setup job tasks (step setup index state) := by
  obtain ⟨answered, dropped, sound⟩ := accounted
  unfold Loopback.step
  split
  next => exact ⟨answered, dropped, sound⟩
  next node stood =>
    have node_sound := sound.nodes index node stood
    obtain ⟨more, lost, change⟩ := node_sound.change opens valid steady state
    exact ⟨_, _, sound.update stood change
      (node_sound.advance opens valid steady (sound.among stood) state)⟩

include opens valid steady in
/-- Every interleaving keeps the account. -/
theorem Accounted.runSchedule (accounted : Accounted setup job tasks state) (schedule : List Nat) :
    Accounted setup job tasks (runSchedule setup schedule state) := by
  induction schedule generalizing state with
  | nil => exact accounted
  | cons index schedule ih => exact ih (accounted.step opens valid steady index)

include opens valid steady in
theorem Accounted.takeTurns (accounted : Accounted setup job tasks state) (rounds : Nat) :
    Accounted setup job tasks (takeTurns setup rounds state) := by
  induction rounds generalizing state with
  | zero => exact accounted
  | succ rounds ih =>
    unfold Loopback.takeTurns
    split
    · exact accounted
    · exact ih (accounted.runSchedule opens valid steady _)

end Run

end Accessibility.Loopback
