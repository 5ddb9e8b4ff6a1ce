import Mathlib.Algebra.Order.BigOperators.Group.List
import Mathlib.Algebra.Order.Group.Nat
import Mathlib.Data.List.InsertIdx
import Accessibility.Proofs.Cache.Tally
import Accessibility.Proofs.Evaluation.Lookups
import Accessibility.Proofs.Execution.Moves

/-! What a job leaves in the counters of its cache. While it is under way the books are kept (`Books`):
the keys that have been looked up for good, those that each worker owes, and those of the packets that
wait make up the keys of the job, none of them twice; and a worker that has missed a key owes its value
before anything else. Every move keeps the books, so when the workers are done all keys have been looked
up, and the cache counts them (`tallied_of_submit`). -/
namespace Accessibility

/-! ## Lists of which one item is changed -/

section Lists

variable {α β : Type} {items : List α} {index : Nat} {item : α}

theorem sum_map_eraseIdx (size : α → Nat) (there : items[index]? = some item) :
    size item + ((items.eraseIdx index).map size).sum = (items.map size).sum := by
  obtain ⟨within, rfl⟩ := List.getElem?_eq_some_iff.mp there
  have within' : index < (items.map size).length := by rwa [List.length_map]
  have whole := List.CommMonoid.add_sum_eraseIdx within'
  rwa [List.getElem_map, List.eraseIdx_map] at whole

theorem sum_map_set (size : α → Nat) (there : items[index]? = some item) (new : α) :
    ((items.set index new).map size).sum + size item = (items.map size).sum + size new := by
  have before := sum_map_eraseIdx size there
  have replaced : (items.set index new)[index]? = some new :=
    List.getElem?_set_self (List.getElem?_eq_some_iff.mp there).1
  have after := sum_map_eraseIdx size replaced
  rw [List.eraseIdx_set_eq] at after
  omega

variable {related : α → β → Prop} {others : List β}

theorem forall₂_set (all : List.Forall₂ related items others) (index : Nat) {new : α} {other : β}
    (holds : related new other) : List.Forall₂ related (items.set index new) (others.set index other) := by
  induction all generalizing index with
  | nil => exact .nil
  | cons first rest ih =>
    cases index with
    | zero => exact .cons holds rest
    | succ index => exact .cons first (ih index)

theorem forall₂_getElem? (all : List.Forall₂ related items others) (there : items[index]? = some item) :
    ∃ other, others[index]? = some other ∧ related item other := by
  induction all generalizing index with
  | nil => cases there
  | cons first _ ih =>
    cases index with
    | zero =>
      cases there
      exact ⟨_, rfl, first⟩
    | succ index => exact ih there

end Lists

open Evaluation UtilityCache

namespace LocalExecutor

variable {evaluator : Evaluator} {inputs : JobInputs} {packets : List Packet} {state : State}
  {start : UtilityCache} {load : Packet → List UtilityKey} {all looked : List UtilityKey}

/-- What a worker still owes: the key that it missed last and has to store, and those that it has
still to look up. -/
structure Todo where
  missed : Option UtilityKey
  keys : List UtilityKey

/-- All the keys that a worker owes. -/
def Todo.owed (todo : Todo) : List UtilityKey := todo.missed.toList ++ todo.keys

/-- A worker that owes no more than is said. -/
inductive Standing : Worker → Todo → Prop where
  | free : Standing .free ⟨none, []⟩
  | busy {position : Nat} {program : Evaluation PacketResult} {todo : Todo}
      (visits : program.Visits todo.missed todo.keys) : Standing (.busy position program) todo

/-- A program that has a request served owes no other keys than before. -/
theorem serve_visits {α : Type} {missed : Option UtilityKey} {keys : List UtilityKey}
    {request : CacheRequest} {next : request.Answer → Evaluation α} {cache : UtilityCache}
    {awaited : Nat} (visits : Visits missed keys (.ask request next))
    (tallied : Tallied start looked (awaited + missed.toList.length) cache)
    (valid : start.spec.validate = .ok ())
    (accepts : ∀ key ∈ missed.toList ++ keys, start.spec.Accepts key)
    (fresh : ∀ key ∈ missed.toList ++ keys, key ∉ looked)
    (lacking : ∀ key ∈ missed, start.lacks key = true) :
    ∃ (looked' : List UtilityKey) (todo : Todo),
      Visits todo.missed todo.keys (next (cache.serve request).1) ∧
      Tallied start looked' (awaited + todo.missed.toList.length) (cache.serve request).2 ∧
      (∀ key ∈ todo.missed, start.lacks key = true) ∧
      ∀ key, looked'.count key + todo.owed.count key = looked.count key + (missed.toList ++ keys).count key := by
  cases visits with
  | @look key keys next seen missed =>
    have accepted := accepts key (by simp)
    have unseen := fresh key (by simp)
    obtain ⟨found, tallied⟩ | ⟨absent, lacks, tallied⟩ := tallied.look accepted unseen
    · refine ⟨key :: looked, ⟨none, keys⟩, seen _ found, tallied, by simp, fun other => ?_⟩
      simp only [Todo.owed, Option.toList_none, List.nil_append, List.count_cons]
      omega
    · refine ⟨looked, ⟨some key, keys⟩, ?_, tallied, by simpa using lacks, fun other => rfl⟩
      show Visits (some key) keys (next (cache.get key).1)
      rw [absent]
      exact missed
  | @store key value keys next stored =>
    have accepted := accepts key (by simp)
    have unseen := fresh key (by simp)
    refine ⟨key :: looked, ⟨none, keys⟩, stored _,
      tallied.store valid accepted unseen (lacking key rfl) value, by simp, fun other => ?_⟩
    simp only [Todo.owed, Option.toList_none, Option.toList_some, List.nil_append, List.singleton_append,
      List.count_cons]
    omega

/-- The books of a job under way: which keys have been looked up for good, and what each worker
owes. No key is lost and none is there twice. -/
structure Books (start : UtilityCache) (load : Packet → List UtilityKey) (all : List UtilityKey)
    (state : State) (looked : List UtilityKey) (todos : List Todo) : Prop where
  working : List.Forall₂ Standing state.workers todos
  tallied : Tallied start looked (todos.map (·.missed.toList.length)).sum state.cache
  lacking : ∀ todo ∈ todos, ∀ key ∈ todo.missed, start.lacks key = true
  balance : ∀ key, looked.count key + (todos.map (·.owed.count key)).sum +
    (state.waiting.map fun entry => (load entry.1).count key).sum = all.count key

/-- A job whose books are kept until there is a fault. -/
def Booked (start : UtilityCache) (load : Packet → List UtilityKey) (all : List UtilityKey)
    (state : State) : Prop :=
  state.fault = none → ∃ looked todos, Books start load all state looked todos

variable {todos : List Todo}

/-- What a worker owes is part of the job, and has not been looked up yet. -/
theorem Books.mem_of_owed (books : Books start load all state looked todos) (distinct : all.Nodup)
    {todo : Todo} (member : todo ∈ todos) : ∀ key ∈ todo.owed, key ∈ all ∧ key ∉ looked := by
  intro key owed
  have balance := books.balance key
  have once := List.nodup_iff_count_le_one.mp distinct key
  have counted : 0 < todo.owed.count key := List.count_pos_iff.mpr owed
  have among : todo.owed.count key ≤ (todos.map (·.owed.count key)).sum :=
    List.le_sum_of_mem (List.mem_map_of_mem member)
  constructor
  · rw [← List.count_pos_iff]
    omega
  · rw [← List.count_eq_zero]
    omega

/-- A free worker that takes a packet owes its keys. -/
theorem Books.take (books : Books start load all state looked todos) {worker choice position : Nat}
    {packet : Packet} {program : Evaluation PacketResult}
    (stands : state.workers[worker]? = some .free)
    (chosen : state.waiting[choice]? = some (packet, position))
    (visits : program.Visits none (load packet)) :
    Books start load all { state with
      waiting := state.waiting.eraseIdx choice
      workers := state.workers.set worker (.busy position program) } looked
      (todos.set worker ⟨none, load packet⟩) := by
  obtain ⟨todo, there, ⟨⟩⟩ := forall₂_getElem? books.working stands
  refine ⟨forall₂_set books.working worker (.busy visits), ?_, fun todo member => ?_, fun key => ?_⟩
  · have awaited := sum_map_set (·.missed.toList.length) there ⟨none, load packet⟩
    simp only [Option.toList_none, List.length_nil, Nat.add_zero] at awaited
    rw [awaited]
    exact books.tallied
  · rcases List.mem_or_eq_of_mem_set member with member | rfl
    · exact books.lacking todo member
    · exact nofun
  · have balance := books.balance key
    have owed := sum_map_set (·.owed.count key) there ⟨none, load packet⟩
    have waits := sum_map_eraseIdx (fun entry => (load entry.1).count key) chosen
    simp only [Todo.owed, Option.toList_none, List.nil_append, List.count_nil] at balance owed waits ⊢
    omega

/-- A worker whose packet has a result owes nothing. -/
theorem Books.release (books : Books start load all state looked todos) {worker position : Nat}
    {result : PacketResult}
    (stands : state.workers[worker]? = some (.busy position (.done (.ok result)))) :
    Books start load all (report { state with workers := state.workers.set worker .free } position
      (.ok result)) looked todos := by
  obtain ⟨todo, there, standing⟩ := forall₂_getElem? books.working stands
  obtain rfl : (⟨none, []⟩ : Todo) = todo := by
    obtain ⟨missed, keys⟩ := todo
    cases standing with
    | busy visits =>
      cases visits
      rfl
  have same : todos.set worker ⟨none, []⟩ = todos := by
    obtain ⟨within, here⟩ := List.getElem?_eq_some_iff.mp there
    rw [← here, List.set_getElem_self]
  refine ⟨?_, books.tallied, books.lacking, books.balance⟩
  rw [← same]
  exact forall₂_set books.working worker .free

/-- A worker that has a request served looks a key up or stores its value. -/
theorem Books.serve (books : Books start load all state looked todos)
    (valid : start.spec.validate = .ok ()) (accepts : ∀ key ∈ all, start.spec.Accepts key)
    (distinct : all.Nodup) {worker position : Nat} {request : CacheRequest}
    {next : request.Answer → Evaluation PacketResult}
    (stands : state.workers[worker]? = some (.busy position (.ask request next))) :
    ∃ looked' todos', Books start load all { state with
      workers := state.workers.set worker (.busy position (next (state.cache.serve request).1))
      cache := (state.cache.serve request).2 } looked' todos' := by
  obtain ⟨todo, there, standing⟩ := forall₂_getElem? books.working stands
  have member := List.mem_of_getElem? there
  have own := books.mem_of_owed distinct member
  -- What the others await stays as it is.
  obtain ⟨awaited, total⟩ : ∃ awaited,
      awaited + todo.missed.toList.length = (todos.map (·.missed.toList.length)).sum :=
    ⟨_, (Nat.add_comm ..).trans (sum_map_eraseIdx (·.missed.toList.length) there)⟩
  cases standing with
  | busy visits =>
    have tallied := books.tallied
    rw [← total] at tallied
    obtain ⟨looked', todo', visits', tallied', lacking', balance'⟩ := serve_visits visits tallied valid
      (fun key owed => accepts key (own key owed).1) (fun key owed => (own key owed).2)
      (books.lacking todo member)
    refine ⟨looked', todos.set worker todo', forall₂_set books.working worker (.busy visits'), ?_,
      fun other among => ?_, fun key => ?_⟩
    · have changed := sum_map_set (·.missed.toList.length) there todo'
      rw [show (List.map _ (todos.set worker todo')).sum = awaited + todo'.missed.toList.length by omega]
      exact tallied'
    · rcases List.mem_or_eq_of_mem_set among with among | rfl
      · exact books.lacking other among
      · exact lacking'
    · have balance := books.balance key
      have balance' := balance' key
      have owed := sum_map_set (·.owed.count key) there todo'
      simp only [Todo.owed] at balance balance' owed ⊢
      omega

/-- A job that may be booked: its packets owe accepted keys, and none of them twice. -/
structure Bookable (evaluator : Evaluator) (inputs : JobInputs) (start : UtilityCache)
    (load : Packet → List UtilityKey) (all : List UtilityKey) : Prop where
  visits : ∀ packet, (evaluation evaluator inputs packet).Visits none (load packet)
  valid : start.spec.validate = .ok ()
  accepts : ∀ key ∈ all, start.spec.Accepts key
  distinct : all.Nodup

/-- Every move keeps the books. -/
theorem Booked.step (booked : Booked start load all state)
    (bookable : Bookable evaluator inputs start load all) (move : Move) :
    Booked start load all (step evaluator inputs move state) := by
  unfold LocalExecutor.step
  split
  next => exact booked
  next stands =>
    split
    next => exact booked
    next packet position chosen =>
      intro clear
      obtain ⟨looked, todos, books⟩ := booked clear
      exact ⟨looked, _, books.take stands chosen (bookable.visits packet)⟩
  next position outcome stands =>
    intro clear
    cases outcome with
    | error fault => cases clear
    | ok result =>
      obtain ⟨looked, todos, books⟩ := booked clear
      exact ⟨looked, todos, books.release stands⟩
  next position program busy stands =>
    cases program with
    | done outcome => exact absurd rfl (busy outcome)
    | ask request next =>
      intro clear
      obtain ⟨looked, todos, books⟩ := booked clear
      exact books.serve bookable.valid bookable.accepts bookable.distinct stands

/-- Workers that owe nothing await nothing. -/
theorem awaited_nothing (count : Nat) :
    ((List.replicate count (⟨none, []⟩ : Todo)).map (·.missed.toList.length)).sum = 0 := by
  simp

/-- Before a job starts, its packets owe all the keys, and the workers none. -/
theorem booked_initial (laid : start.Laid start.spec) (threads : Nat) (packets : List Packet) :
    Booked start load (packets.flatMap load) (initial threads packets start) := by
  have free : List.Forall₂ Standing (List.replicate threads .free) (List.replicate threads ⟨none, []⟩) := by
    induction threads with
    | zero => exact .nil
    | succ threads ih => exact .cons .free ih
  refine fun _ => ⟨[], _, free, ?_, fun todo member => ?_, fun key => ?_⟩
  · rw [awaited_nothing]
    exact tallied_start laid
  · rw [(List.mem_replicate.mp member).2]
    exact nofun
  · have waits : (packets.zipIdx.map fun entry => (load entry.1).count key) =
        packets.map fun packet => (load packet).count key := by
      rw [← List.zipIdx_map_fst 0 packets, List.map_map]
      simp
    simp [initial, Todo.owed, List.count_flatMap, waits, Function.comp_def]

/-- At the end of a job without a fault all its keys have been looked up for good. -/
theorem Booked.tallied_of_idle (booked : Booked start load all state) (clear : state.fault = none)
    (idle : Idle state) (done : state.waiting = []) : Tallied start all 0 state.cache := by
  obtain ⟨looked, todos, books⟩ := booked clear
  have nothing : ∀ todo ∈ todos, todo = ⟨none, []⟩ := by
    intro todo member
    obtain ⟨worker, there⟩ := List.mem_iff_getElem?.mp member
    obtain ⟨standing, here, stands⟩ := forall₂_getElem? books.working.flip there
    cases stands with
    | free => rfl
    | busy visits => exact absurd here (idle worker _ _)
  obtain ⟨count, rfl⟩ : ∃ count, todos = List.replicate count ⟨none, []⟩ :=
    ⟨_, List.eq_replicate_of_mem nothing⟩
  have perm : looked.Perm all := by
    refine List.perm_iff_count.mpr fun key => ?_
    simpa [Todo.owed, done] using books.balance key
  have tallied := books.tallied
  rw [awaited_nothing] at tallied
  exact tallied.of_perm perm

/-- What a job with results leaves in its cache: all the keys of its packets have been looked up, and
stored where they were missed. -/
theorem tallied_of_submit {threads : Nat} (some_threads : threads ≠ 0) {schedule : List Move}
    {results : List PacketResult} {after : UtilityCache}
    (bookable : Bookable evaluator inputs start load (packets.flatMap load))
    (laid : start.Laid start.spec)
    (ran : submit threads evaluator schedule inputs packets start = (.ok results, after)) :
    Tallied start (packets.flatMap load) 0 after := by
  have begun : Booked start load (packets.flatMap load) (initial threads packets start) :=
    booked_initial laid threads packets
  have keeps : ∀ state move, Booked start load (packets.flatMap load) state →
      Booked start load (packets.flatMap load) (step evaluator inputs move state) :=
    fun _ move booked => booked.step bookable move
  obtain ⟨last, ended, booked, idle, done⟩ := submit_induction keeps some_threads schedule begun
  obtain ⟨answered, rfl⟩ := Prod.ext_iff.mp (ran.symm.trans ended)
  have clear := fault_of_answer answered.symm
  exact booked.tallied_of_idle clear idle (done clear)

end LocalExecutor

end Accessibility
