import Mathlib.Logic.Function.Basic
import Accessibility.Proofs.Cache.Store
import Accessibility.Proofs.Evaluation.Interference

/-! Workers that share one cache agree on the value of every key. A call goes through the
cache request by request, and between two requests of one call the cache may serve any
number of requests of others: two workers may both miss a key and both compute a value for
it. The first to write decides what all of them see, then and later (`calls_agree`). -/
namespace Accessibility
open Function (update)

/-- What a worker may ask for under a key. -/
inductive CacheCall where
  | get (key : UtilityKey)
  | put (key : UtilityKey) (value : Utilities)
  | getOrCompute (key : UtilityKey) (compute : Unit → Outcome Utilities)

namespace CacheCall

def key : CacheCall → UtilityKey
  | get key => key
  | put key _ => key
  | getOrCompute key _ => key

/-- A call as a program. Only a lookup may find nothing; a write answers with the value
that is then visible. -/
def program : CacheCall → Evaluation (Option Utilities)
  | get key => .ask (.get key) .done
  | put key value => .ask (.put key value) fun answer => .done (answer.map some)
  | getOrCompute key compute => (Evaluation.cached key compute).bind fun value => .done (.ok (some value))

/-- Whether a value is one that a call brings for its key. -/
def Supplies (value : Utilities) : CacheCall → Prop
  | get _ => False
  | put _ given => given = value
  | getOrCompute _ compute => compute () = .ok value

end CacheCall

/-- Without interruption the program of a computing lookup is the computing lookup. -/
theorem Evaluation.run_cached (key : UtilityKey) (compute : Unit → Outcome Utilities)
    (cache : UtilityCache) :
    (cached key compute).run cache = (cache.getOrCompute key (pure (compute ())) ()).1 := by
  unfold UtilityCache.getOrCompute
  simp only [cached, run, UtilityCache.serve]
  rcases cache.get key with ⟨_ | _ | _, _⟩
  · rfl
  · simp only [pure]
    cases compute () <;> rfl
  · rfl

/-- A call of a worker that has not returned. -/
structure CallUnderWay where
  call : CacheCall
  /-- When the worker began it. -/
  began : Nat
  /-- What is left of its program. -/
  program : Evaluation (Option Utilities)

/-- A call that has returned. -/
structure ReturnedCall where
  call : CacheCall
  began : Nat
  ended : Nat
  result : Outcome (Option Utilities)

/-- Workers over one cache. Each of any number of them has at most one call under way. -/
structure CacheSharing where
  cache : UtilityCache
  /-- The number of moves made. -/
  clock : Nat
  workers : Nat → Option CallUnderWay
  begun : List CacheCall
  returned : List ReturnedCall

namespace CacheSharing

/-- A move of one worker: it begins a call if it has none under way, has the cache serve
one request of its call, or returns from a call whose program is over. -/
inductive Move where
  | begin (worker : Nat) (call : CacheCall)
  | serve (worker : Nat)
  | finish (worker : Nat)

/-- A new cache, which nobody has called. -/
def initial (cache : UtilityCache) : CacheSharing := ⟨cache, 0, fun _ => none, [], []⟩

/-- Makes one move. A move that its worker cannot make changes nothing. -/
def step (state : CacheSharing) : Move → CacheSharing
  | .begin worker call =>
    match state.workers worker with
    | some _ => state
    | none =>
      { state with
        clock := state.clock + 1
        workers := update state.workers worker (some ⟨call, state.clock, call.program⟩)
        begun := call :: state.begun }
  | .serve worker =>
    match state.workers worker with
    | none => state
    | some ⟨call, began, program⟩ =>
      let (program, cache) := program.advance state.cache
      { state with
        cache
        clock := state.clock + 1
        workers := update state.workers worker (some ⟨call, began, program⟩) }
  | .finish worker =>
    match state.workers worker with
    | some ⟨call, began, .done result⟩ =>
      { state with
        clock := state.clock + 1
        workers := update state.workers worker none
        returned := ⟨call, began, state.clock, result⟩ :: state.returned }
    | _ => state

def run (moves : List Move) (state : CacheSharing) : CacheSharing := moves.foldl step state

end CacheSharing

namespace CacheCall

/-- What a call is told, by what the cache then holds: a value is the stored one, only a
lookup is told that there is none, and a fault is that of a refused key or of the caller's
own computation. -/
def Answered (spec : CacheSpec) (cache : UtilityCache) (call : CacheCall) :
    Outcome (Option Utilities) → Prop
  | .ok (some value) => cache.stored call.key = some value
  | .ok none => call = .get call.key
  | .error fault => ¬ spec.Accepts call.key ∨
      ∃ compute, call = .getOrCompute call.key compute ∧ compute () = .error fault

/-- What a call that began with one cache is told with a later one. -/
def Told (spec : CacheSpec) (start : UtilityCache) (call : CacheCall)
    (result : Outcome (Option Utilities)) (current : UtilityCache) : Prop :=
  Answered spec current call result ∧ (result = .ok none → start.stored call.key = none)

variable {spec : CacheSpec} {right : UtilityKey → Utilities → Prop}

/-- Every call keeps the agreement if what it brings is right. -/
theorem keeps_program (sized : spec.validate = .ok ()) (call : CacheCall)
    (brings : ∀ value, call.Supplies value → right call.key value) {start : UtilityCache}
    (valid : (CacheAgreement.writeOnce spec right).valid start) :
    Evaluation.Keeps (.writeOnce spec right) (Told spec start call) call.program start := by
  cases call with
  | get key =>
    apply Evaluation.keeps_ask_get
    · intro fault current refused _ _
      exact .done fun _ _ _ => ⟨.inl refused, fun impossible => nomatch impossible⟩
    · intro value current _ _ _ stored
      exact .done fun _ _ later => ⟨later key value stored, fun impossible => nomatch impossible⟩
    · intro current _ _ extends_ missing
      refine .done fun _ _ _ => ⟨rfl, fun _ => ?_⟩
      cases before : start.stored key with
      | none => exact before
      | some value =>
        have after := extends_ key value before
        rw [missing] at after
        cases after
  | put key value =>
    apply Evaluation.keeps_ask_put sized (brings value rfl)
    · intro fault current refused _ _
      exact .done fun _ _ _ => ⟨.inl refused, fun impossible => nomatch impossible⟩
    · intro held current _ _ _ stored
      exact .done fun _ _ later => ⟨later key held stored, fun impossible => nomatch impossible⟩
  | getOrCompute key compute =>
    refine (Evaluation.keeps_cached sized brings start).bind valid ?_ ?_
    · intro value current _ stored
      exact .done fun _ _ later => ⟨later key value stored, fun impossible => nomatch impossible⟩
    · intro fault current answered
      refine ⟨?_, fun impossible => nomatch impossible⟩
      obtain refused | failed := answered
      · exact .inl refused
      · exact .inr ⟨compute, rfl, failed⟩

end CacheCall

namespace CacheSharing

variable {spec : CacheSpec} {right : UtilityKey → Utilities → Prop} {state : CacheSharing}

/-- A cache that held the value of every call that had returned with one when another began. -/
def Knows (returned : List ReturnedCall) (start : UtilityCache) (began : Nat) : Prop :=
  ∀ prior ∈ returned, prior.ended ≤ began →
    ∀ value, prior.result = .ok (some value) → start.stored prior.call.key = some value

/-- A call that keeps the agreement and promises what calls are told. -/
def Bound (spec : CacheSpec) (right : UtilityKey → Utilities → Prop) (state : CacheSharing)
    (call : CacheCall) (began : Nat) (program : Evaluation (Option Utilities)) : Prop :=
  began < state.clock ∧ call ∈ state.begun ∧ ∃ start, Knows state.returned start began ∧
    Evaluation.Keeps (.writeOnce spec right) (call.Told spec start) program state.cache

/-- What holds between two moves. -/
structure Sound (spec : CacheSpec) (right : UtilityKey → Utilities → Prop) (state : CacheSharing) : Prop where
  kept : (CacheAgreement.writeOnce spec right).valid state.cache
  underWay : ∀ worker current, state.workers worker = some current →
    Bound spec right state current.call current.began current.program
  returned : ∀ prior ∈ state.returned, prior.ended < state.clock ∧
    Bound spec right state prior.call prior.began (.done prior.result)

theorem sound_initial (spec : CacheSpec) (right : UtilityKey → Utilities → Prop) :
    Sound spec right (initial (.empty spec)) where
  kept := CacheAgreement.writeOnce_empty spec right
  underWay _ _ impossible := nomatch impossible
  returned _ impossible := nomatch impossible

/-- A call that has been told its result. -/
theorem told_of_bound {call : CacheCall} {began : Nat} {result : Outcome (Option Utilities)}
    (kept : (CacheAgreement.writeOnce spec right).valid state.cache)
    (bound : Bound spec right state call began (.done result)) :
    ∃ start, Knows state.returned start began ∧ call.Told spec start result state.cache := by
  obtain ⟨_, _, start, knows, keeps⟩ := bound
  exact ⟨start, knows, (keeps.run kept).2.2⟩

/-- What one move is to all other calls: time passes, the cache may hold more, a call may
begin, and one that is over may return. -/
structure Passes (spec : CacheSpec) (right : UtilityKey → Utilities → Prop) (state after : CacheSharing) :
    Prop where
  clock : after.clock = state.clock + 1
  grows : after.cache.Extends state.cache
  begun : ∀ call ∈ state.begun, call ∈ after.begun
  returned : ∀ prior ∈ after.returned, prior ∈ state.returned ∨
    (prior.ended = state.clock ∧ Bound spec right state prior.call prior.began (.done prior.result))

/-- What a call keeps does not depend on the moves of others. -/
theorem Bound.later {call : CacheCall} {began : Nat} {program : Evaluation (Option Utilities)}
    (bound : Bound spec right state call began program) {after : CacheSharing}
    (passes : Passes spec right state after) : Bound spec right after call began program := by
  obtain ⟨early, called, start, knows, keeps⟩ := bound
  refine ⟨?_, passes.begun call called, start, ?_, keeps.later passes.grows⟩
  · rw [passes.clock]
    exact Nat.lt_succ_of_lt early
  · intro prior there ended
    obtain before | ⟨now, _⟩ := passes.returned prior there
    · exact knows prior before ended
    · rw [now] at ended
      exact absurd early (Nat.not_lt.mpr ended)

/-- A move of one worker leaves the calls of all others bound. -/
theorem Sound.pass {after : CacheSharing} {worker : Nat} {next : Option CallUnderWay}
    (sound : Sound spec right state) (passes : Passes spec right state after)
    (kept : (CacheAgreement.writeOnce spec right).valid after.cache)
    (workers : after.workers = update state.workers worker next)
    (own : ∀ current, next = some current →
      Bound spec right after current.call current.began current.program) :
    Sound spec right after := by
  refine ⟨kept, fun other current there => ?_, fun prior there => ?_⟩
  · rw [workers] at there
    by_cases same : other = worker
    · subst same
      rw [Function.update_self] at there
      exact own current there
    · rw [Function.update_of_ne same] at there
      exact (sound.underWay other current there).later passes
  · rw [passes.clock]
    obtain before | ⟨now, bound⟩ := passes.returned prior there
    · obtain ⟨ended, bound⟩ := sound.returned prior before
      exact ⟨Nat.lt_succ_of_lt ended, bound.later passes⟩
    · rw [now]
      exact ⟨Nat.lt_succ_self _, bound.later passes⟩

/-- A call that has begun stays begun. -/
theorem begun_step (move : Move) {call : CacheCall} (called : call ∈ state.begun) :
    call ∈ (step state move).begun := by
  unfold step
  repeat' split
  all_goals first | exact called | exact List.mem_cons_of_mem _ called

/-- One move keeps what is stored, and all calls stay bound. -/
theorem sound_step (sized : spec.validate = .ok ()) (sound : Sound spec right state) (move : Move)
    (brings : ∀ call ∈ (step state move).begun, ∀ value, call.Supplies value → right call.key value) :
    Sound spec right (step state move) ∧ (step state move).cache.Extends state.cache := by
  have same := (CacheAgreement.writeOnce spec right).refl state.cache
  cases move with
  | begin worker call =>
    cases idle : state.workers worker with
    | some current =>
      simp only [step, idle]
      exact ⟨sound, same⟩
    | none =>
      simp only [step, idle] at brings ⊢
      refine ⟨sound.pass ⟨rfl, same, fun _ => List.mem_cons_of_mem _, fun _ => .inl⟩ sound.kept rfl ?_, same⟩
      intro current there
      cases there
      -- The call begins with the cache as it is, which holds all that anybody was told.
      have keeps := call.keeps_program sized (brings call (List.mem_cons_self ..)) sound.kept
      refine ⟨Nat.lt_succ_self _, List.mem_cons_self .., state.cache, ?_, keeps⟩
      intro prior there _ value found
      obtain ⟨_, _, answered, _⟩ := told_of_bound sound.kept (sound.returned prior there).2
      rwa [found] at answered
  | serve worker =>
    cases under : state.workers worker with
    | none =>
      simp only [step, under]
      exact ⟨sound, same⟩
    | some current =>
      simp only [step, under]
      obtain ⟨early, called, start, knows, keeps⟩ := sound.underWay worker current under
      obtain ⟨kept, grows, goesOn⟩ := keeps.advance sound.kept
      refine ⟨sound.pass ⟨rfl, grows, fun _ => id, fun _ => .inl⟩ kept rfl ?_, grows⟩
      intro current there
      cases there
      exact ⟨Nat.lt_succ_of_lt early, called, start, knows, goesOn⟩
  | finish worker =>
    rcases under : state.workers worker with _ | ⟨call, began, result | ⟨request, next⟩⟩
    · simp only [step, under]
      exact ⟨sound, same⟩
    · simp only [step, under]
      refine ⟨sound.pass ⟨rfl, same, fun _ => id, fun prior there => ?_⟩ sound.kept rfl ?_, same⟩
      · obtain rfl | before := List.mem_cons.mp there
        · exact .inr ⟨rfl, sound.underWay worker _ under⟩
        · exact .inl before
      · intro current impossible
        cases impossible
    · simp only [step, under]
      exact ⟨sound, same⟩

theorem begun_run {call : CacheCall} (moves : List Move) (called : call ∈ state.begun) :
    call ∈ (run moves state).begun := by
  induction moves generalizing state with
  | nil => exact called
  | cons move rest ih => exact ih (begun_step move called)

/-- Any interleaving keeps what is stored, if all that is brought in it is right. -/
theorem sound_run (sized : spec.validate = .ok ()) (right : UtilityKey → Utilities → Prop)
    (moves : List Move) (sound : Sound spec right state)
    (brings : ∀ call ∈ (run moves state).begun, ∀ value, call.Supplies value → right call.key value) :
    Sound spec right (run moves state) ∧ (run moves state).cache.Extends state.cache := by
  induction moves generalizing state with
  | nil => exact ⟨sound, (CacheAgreement.writeOnce spec right).refl state.cache⟩
  | cons move rest ih =>
    obtain ⟨stepped, grows⟩ :=
      sound_step sized sound move fun call called => brings call (begun_run rest called)
    obtain ⟨final, later⟩ := ih stepped brings
    exact ⟨final, (CacheAgreement.writeOnce spec right).trans grows later⟩

/-- Workers that share a cache agree, in any interleaving. What is stored under a key stays
and was brought by a call for that key. A call that returns with a value returns with the
stored one, and only a lookup returns without; a call fails only if its key is refused or
its own computation failed. A lookup that begins after a call on its key returned with a
value returns with the same. -/
theorem calls_agree (sized : spec.validate = .ok ()) (moves later : List Move) :
    let state := run moves (initial (.empty spec))
    (∀ key value, state.cache.stored key = some value →
      (run later state).cache.stored key = some value ∧
        ∃ call ∈ state.begun, call.key = key ∧ call.Supplies value) ∧
    ∀ ended ∈ state.returned, ended.call ∈ state.begun ∧
      ended.call.Answered spec state.cache ended.result ∧
      ∀ prior ∈ state.returned, ended.call = .get prior.call.key → prior.ended ≤ ended.began →
        (∃ value, prior.result = .ok (some value)) → ended.result = prior.result := by
  intro state
  obtain ⟨sound, _⟩ := sound_run sized (fun key value =>
    ∃ call ∈ state.begun, call.key = key ∧ call.Supplies value) moves (sound_initial spec _)
    fun call called value supplies => ⟨call, called, rfl, supplies⟩
  refine ⟨fun key value stored => ⟨?_, sound.kept.2 key value stored⟩, fun ended there => ?_⟩
  · obtain ⟨loose, _⟩ := sound_run sized (fun _ _ => True) moves (sound_initial spec _)
      fun _ _ _ _ => trivial
    exact (sound_run sized _ later loose fun _ _ _ _ => trivial).2 key value stored
  · obtain ⟨_, bound⟩ := sound.returned ended there
    obtain ⟨start, knows, answered, absent⟩ := told_of_bound sound.kept bound
    refine ⟨bound.2.1, answered, ?_⟩
    rintro prior returned lookup before ⟨value, found⟩
    have held := knows prior returned before value found
    obtain ⟨_, _, visible, _⟩ := told_of_bound sound.kept (sound.returned prior returned).2
    rw [found] at visible ⊢
    rw [lookup] at answered absent
    rcases told : ended.result with fault | _ | other
    · rw [told] at answered
      obtain refused | ⟨_, impossible, _⟩ := answered
      · exact absurd (UtilityCache.accepts_of_stored sound.kept.1 visible) refused
      · cases impossible
    · have missing := absent told
      rw [show (CacheCall.get prior.call.key).key = prior.call.key from rfl, held] at missing
      cases missing
    · rw [told] at answered
      have same := answered.symm.trans visible
      rw [Option.some.inj same]

/-- Two workers that both find nothing and compute different values, and a later lookup. -/
def race : List Move :=
  [.begin 0 (.getOrCompute ⟨0, 0, 0, 1⟩ fun _ => .ok [.zero]),
    .begin 1 (.getOrCompute ⟨0, 0, 0, 1⟩ fun _ => .ok []),
    .serve 0, .serve 1, .serve 1, .serve 0, .finish 0, .finish 1,
    .begin 0 (.get ⟨0, 0, 0, 1⟩), .serve 0, .finish 0]

theorem calls_agree_race :
    let state := run race (initial (.empty ⟨1, 1, 1, 1⟩))
    CacheSpec.validate ⟨1, 1, 1, 1⟩ = .ok () ∧
      state.returned.map (·.result) = [.ok (some []), .ok (some []), .ok (some [])] ∧
      ∀ ended ∈ state.returned, ended.call.Answered ⟨1, 1, 1, 1⟩ state.cache ended.result := by
  have sized : CacheSpec.validate ⟨1, 1, 1, 1⟩ = .ok () := rfl
  refine ⟨sized, ?_, fun ended there => ((calls_agree sized race []).2 ended there).2.1⟩
  have bound : max (1 : UInt32) 1 = 1 := rfl
  simp [run, race, initial, step, CacheCall.program, Evaluation.cached, Evaluation.bind,
    Evaluation.advance, UtilityCache.serve, UtilityCache.get, UtilityCache.put, UtilityCache.place,
    UtilityCache.empty, UtilityKey.pairKey, CacheSpec.maxEndpoint, Function.update, bound]

end CacheSharing

end Accessibility
