import Mathlib.Logic.Basic
import Accessibility.Evaluation.Program
import Accessibility.Proofs.Cache.Store

/-! Evaluations among others. Between two requests of an evaluation its cache may serve
anybody else, so what the evaluation can rely on is what all of them agree to keep: which
caches there may be, and how a cache may go on. An evaluation that keeps an agreement keeps
it with every request it makes, and ends in what it promises whatever the others do, as long
as they keep it too (`Keeps.advance`). Left alone it keeps its promise as well
(`Keeps.run`). -/
namespace Accessibility

/-- What everybody who uses a cache agrees to keep. -/
structure CacheAgreement where
  /-- The caches there may be. -/
  valid : UtilityCache → Prop
  /-- How a cache may go on. -/
  grows : UtilityCache → UtilityCache → Prop
  refl : ∀ cache, grows cache cache
  trans : ∀ {first second third}, grows first second → grows second third → grows first third

namespace Evaluation

variable {agreement : CacheAgreement} {α β : Type} {program : Evaluation α} {cache : UtilityCache}
  {post : Outcome α → UtilityCache → Prop}

/-- A program that keeps an agreement from a cache on: it makes its requests of whatever the
cache has become meanwhile, and its result is as promised however the cache goes on. -/
inductive Keeps (agreement : CacheAgreement) (post : Outcome α → UtilityCache → Prop) :
    Evaluation α → UtilityCache → Prop where
  | done {result cache}
    (promised : ∀ current, agreement.valid current → agreement.grows cache current → post result current) :
    Keeps agreement post (.done result) cache
  | ask {request next cache}
    (served : ∀ current, agreement.valid current → agreement.grows cache current →
      agreement.valid (current.serve request).2 ∧ agreement.grows current (current.serve request).2)
    (goesOn : ∀ current, agreement.valid current → agreement.grows cache current →
      Keeps agreement post (next (current.serve request).1) (current.serve request).2) :
    Keeps agreement post (.ask request next) cache

/-- What others do to the cache does not matter. -/
theorem Keeps.later {current : UtilityCache} (keeps : Keeps agreement post program cache)
    (grows : agreement.grows cache current) : Keeps agreement post program current := by
  cases keeps with
  | done promised => exact .done fun last valid after => promised last valid (agreement.trans grows after)
  | ask served goesOn =>
    exact .ask (fun last valid after => served last valid (agreement.trans grows after))
      fun last valid after => goesOn last valid (agreement.trans grows after)

theorem Keeps.weaken {other : Outcome α → UtilityCache → Prop} (keeps : Keeps agreement post program cache)
    (implies : ∀ result current, agreement.valid current → post result current → other result current) :
    Keeps agreement other program cache := by
  induction keeps with
  | done promised =>
    exact .done fun current valid grows => implies _ current valid (promised current valid grows)
  | ask served _ ih => exact .ask served ih

/-- A program that ends by handing its value on. -/
theorem Keeps.bind {next : α → Evaluation β} {final : Outcome β → UtilityCache → Prop}
    (keeps : Keeps agreement post program cache) (valid : agreement.valid cache)
    (goesOn : ∀ value current, agreement.valid current → post (.ok value) current →
      Keeps agreement final (next value) current)
    (fails : ∀ fault current, post (.error fault) current → final (.error fault) current) :
    Keeps agreement final (program.bind next) cache := by
  induction keeps with
  | @done result cache promised =>
    cases result with
    | ok value => exact goesOn value cache valid (promised cache valid (agreement.refl cache))
    | error fault =>
      exact .done fun current valid grows => fails fault current (promised current valid grows)
  | ask served _ ih =>
    exact .ask served fun current kept grows => ih current kept grows (served current kept grows).1

/-- Serving one request keeps the agreement, and the rest of the program goes on to keep it. -/
theorem Keeps.advance (keeps : Keeps agreement post program cache) (valid : agreement.valid cache) :
    agreement.valid (program.advance cache).2 ∧ agreement.grows cache (program.advance cache).2 ∧
      Keeps agreement post (program.advance cache).1 (program.advance cache).2 := by
  cases keeps with
  | done promised => exact ⟨valid, agreement.refl cache, .done promised⟩
  | ask served goesOn =>
    obtain ⟨kept, grows⟩ := served cache valid (agreement.refl cache)
    exact ⟨kept, grows, goesOn cache valid (agreement.refl cache)⟩

/-- Run without interruption a program keeps the agreement and its promise. -/
theorem Keeps.run (keeps : Keeps agreement post program cache) (valid : agreement.valid cache) :
    agreement.valid (program.run cache).2 ∧ agreement.grows cache (program.run cache).2 ∧
      post (program.run cache).1 (program.run cache).2 := by
  induction program generalizing cache with
  | done result =>
    cases keeps with
    | done promised => exact ⟨valid, agreement.refl cache, promised cache valid (agreement.refl cache)⟩
  | ask request next ih =>
    obtain ⟨kept, grows, goesOn⟩ := keeps.advance valid
    obtain ⟨final, later, holds⟩ := ih _ goesOn kept
    exact ⟨final, agreement.trans grows later, holds⟩

end Evaluation

section WriteOnce

variable {spec : CacheSpec} {right : UtilityKey → Utilities → Prop} {key : UtilityKey}
  {value : Utilities} {cache : UtilityCache} {α : Type} {post : Outcome α → UtilityCache → Prop}

/-- A cache that holds all that another one holds. -/
def UtilityCache.Extends (current cache : UtilityCache) : Prop :=
  ∀ (key : UtilityKey) (value : Utilities), cache.stored key = some value → current.stored key = some value

/-- The agreement to leave what is stored under a key, and to store only what is right for
it. -/
def CacheAgreement.writeOnce (spec : CacheSpec) (right : UtilityKey → Utilities → Prop) :
    CacheAgreement where
  valid cache := cache.Laid spec ∧ ∀ key value, cache.stored key = some value → right key value
  grows cache current := current.Extends cache
  refl _ _ _ stored := stored
  trans first second key value stored := second key value (first key value stored)

open CacheAgreement (writeOnce)

/-- A new cache holds nothing that could be wrong. -/
theorem CacheAgreement.writeOnce_empty (spec : CacheSpec) (right : UtilityKey → Utilities → Prop) :
    (writeOnce spec right).valid (.empty spec) :=
  ⟨UtilityCache.laid_empty spec, fun key value stored => by
    rw [UtilityCache.stored_empty] at stored
    cases stored⟩

/-- Counting a lookup keeps the agreement. -/
theorem CacheAgreement.writeOnce_countLookup (valid : (writeOnce spec right).valid cache) (found : Bool) :
    (writeOnce spec right).valid (cache.countLookup found) ∧ (cache.countLookup found).Extends cache := by
  refine ⟨⟨UtilityCache.laid_countLookup valid.1 found, fun key value stored => ?_⟩,
    fun key value stored => ?_⟩
  · rw [UtilityCache.stored_countLookup] at stored
    exact valid.2 key value stored
  · rwa [UtilityCache.stored_countLookup]

/-- So does a write of a right value. -/
theorem CacheAgreement.writeOnce_put (sized : spec.validate = .ok ()) (accepts : spec.Accepts key)
    (brings : right key value) (valid : (writeOnce spec right).valid cache) :
    (writeOnce spec right).valid (cache.put key value).2 ∧ (cache.put key value).2.Extends cache := by
  have stored := UtilityCache.stored_put sized valid.1 accepts value
  refine ⟨⟨UtilityCache.laid_put valid.1 key value, fun other held there => ?_⟩, fun other held there => ?_⟩
  · rw [stored] at there
    split at there
    next same =>
      cases there
      rw [same]
      cases before : cache.stored key with
      | some first => exact valid.2 key first before
      | none => exact brings
    next => exact valid.2 other held there
  · rw [stored]
    split
    next same => rw [← same, there, Option.getD_some]
    next => exact there

namespace Evaluation

/-- A lookup finds the stored value, or nothing, or is refused. -/
theorem keeps_ask_get {next : Outcome (Option Utilities) → Evaluation α}
    (refused : ∀ fault current, ¬ spec.Accepts key → (writeOnce spec right).valid current →
      current.Extends cache → Keeps (writeOnce spec right) post (next (.error fault)) current)
    (found : ∀ value current, spec.Accepts key → (writeOnce spec right).valid current →
      current.Extends cache → current.stored key = some value →
      Keeps (writeOnce spec right) post (next (.ok (some value))) current)
    (missed : ∀ current, spec.Accepts key → (writeOnce spec right).valid current →
      current.Extends cache → current.stored key = none →
      Keeps (writeOnce spec right) post (next (.ok none)) current) :
    Keeps (writeOnce spec right) post (.ask (.get key) next) cache := by
  by_cases accepts : spec.Accepts key
  · refine .ask (fun current valid grows => ?_) fun current valid grows => ?_
    · simp only [UtilityCache.serve, UtilityCache.get_of_accepts valid.1 accepts]
      exact CacheAgreement.writeOnce_countLookup valid _
    · simp only [UtilityCache.serve, UtilityCache.get_of_accepts valid.1 accepts]
      obtain ⟨kept, later⟩ := CacheAgreement.writeOnce_countLookup valid (current.stored key).isSome
      have grown := (writeOnce spec right).trans grows later
      have same := UtilityCache.stored_countLookup current (current.stored key).isSome key
      cases held : current.stored key with
      | some value =>
        rw [held] at same kept grown
        exact found value _ accepts kept grown same
      | none =>
        rw [held] at same kept grown
        exact missed _ accepts kept grown same
  · refine .ask (fun current valid grows => ?_) fun current valid grows => ?_
    · simp only [UtilityCache.serve, UtilityCache.get_of_refused valid.1 accepts]
      exact ⟨valid, (writeOnce spec right).refl current⟩
    · simp only [UtilityCache.serve, UtilityCache.get_of_refused valid.1 accepts]
      exact refused _ current accepts valid grows

/-- A write of a right value is told what is then stored, or is refused. -/
theorem keeps_ask_put {next : Outcome Utilities → Evaluation α} (sized : spec.validate = .ok ())
    (brings : right key value)
    (refused : ∀ fault current, ¬ spec.Accepts key → (writeOnce spec right).valid current →
      current.Extends cache → Keeps (writeOnce spec right) post (next (.error fault)) current)
    (visible : ∀ held current, spec.Accepts key → (writeOnce spec right).valid current →
      current.Extends cache → current.stored key = some held →
      Keeps (writeOnce spec right) post (next (.ok held)) current) :
    Keeps (writeOnce spec right) post (.ask (.put key value) next) cache := by
  by_cases accepts : spec.Accepts key
  · refine .ask (fun current valid _ => CacheAgreement.writeOnce_put sized accepts brings valid)
      fun current valid grows => ?_
    obtain ⟨kept, later⟩ := CacheAgreement.writeOnce_put sized accepts brings valid
    have there := UtilityCache.stored_put sized valid.1 accepts value key
    rw [if_pos rfl] at there
    simp only [UtilityCache.serve, UtilityCache.put_fst valid.1 accepts]
    exact visible _ _ accepts kept ((writeOnce spec right).trans grows later) there
  · refine .ask (fun current valid grows => ?_) fun current valid grows => ?_
    · simp only [UtilityCache.serve, UtilityCache.put_of_refused valid.1 accepts]
      exact ⟨valid, (writeOnce spec right).refl current⟩
    · simp only [UtilityCache.serve, UtilityCache.put_of_refused valid.1 accepts]
      exact refused _ current accepts valid grows

/-- What a computing lookup may be told: the stored value, or why there is none. -/
def CachedAnswer (spec : CacheSpec) (key : UtilityKey) (compute : Unit → Outcome Utilities) :
    Outcome Utilities → UtilityCache → Prop
  | .ok value, current => current.stored key = some value
  | .error fault, _ => ¬ spec.Accepts key ∨ compute () = .error fault

/-- A computing lookup keeps the agreement if what it computes is right, and is told the
value that all see. -/
theorem keeps_cached {compute : Unit → Outcome Utilities} (sized : spec.validate = .ok ())
    (brings : ∀ value, compute () = .ok value → right key value) (cache : UtilityCache) :
    Keeps (writeOnce spec right) (CachedAnswer spec key compute) (cached key compute) cache := by
  apply keeps_ask_get
  · intro fault current refused _ _
    exact .done fun _ _ _ => .inl refused
  · intro value current _ _ _ stored
    exact .done fun _ _ later => later key value stored
  · intro current _ _ _ _
    cases computed : compute () with
    | error fault => exact .done fun _ _ _ => .inr computed
    | ok value =>
      apply keeps_ask_put sized (brings value computed)
      · intro fault last refused _ _
        exact .done fun _ _ _ => .inl refused
      · intro held last _ _ _ stored
        exact .done fun _ _ later => later key held stored

end Evaluation

end WriteOnce

end Accessibility
