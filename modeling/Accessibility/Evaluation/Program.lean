import Accessibility.Cache.Store

/-! An evaluation as a program over a utility cache. Its only effects are requests,
each of which the cache serves as one step; what the cache does between two requests
is up to whoever runs the program. `run` runs it against one cache without
interruption and `runAlone` without any cache, where nothing is found and every write
is seen as it was given. `advance` serves a single request: workers that share a cache
take their programs apart with it, in any order. -/
namespace Accessibility

/-- What an evaluation may ask of a cache. -/
inductive CacheRequest where
  | get (key : UtilityKey)
  | put (key : UtilityKey) (value : Utilities)
  | getDense (mode : AccessMode) (leg : Leg) (zone tap : UInt32)
  | putDense (mode : AccessMode) (leg : Leg) (zone tap : UInt32) (value : Utilities)
  deriving DecidableEq, Repr

namespace CacheRequest

/-- A lookup answers with what is stored, a write with the value that is then
visible. -/
def Answer : CacheRequest → Type
  | get _ => Outcome (Option Utilities)
  | put .. => Outcome Utilities
  | getDense .. => Outcome (Option Utilities)
  | putDense .. => Outcome Utilities

/-- The answer where there is no cache. -/
def answerAlone : (request : CacheRequest) → request.Answer
  | get _ => .ok none
  | put _ value => .ok value
  | getDense .. => .ok none
  | putDense _ _ _ _ value => .ok value

end CacheRequest

/-- The answer to a request, and the cache after it. -/
def UtilityCache.serve (cache : UtilityCache) :
    (request : CacheRequest) → request.Answer × UtilityCache
  | .get key => cache.get key
  | .put key value => cache.put key value
  | .getDense mode leg zone tap => (cache.getDense mode leg zone tap, cache)
  | .putDense mode leg zone tap value => cache.putDense mode leg zone tap value

/-- A computation that may consult a cache and ends in a result or a fault. -/
inductive Evaluation (α : Type) where
  /-- The evaluation is over. -/
  | done (result : Outcome α)
  /-- Goes on with the answer to a request. -/
  | ask (request : CacheRequest) (next : request.Answer → Evaluation α)

namespace Evaluation

variable {α β : Type}

def bind : Evaluation α → (α → Evaluation β) → Evaluation β
  | done (.ok a), f => f a
  | done (.error fault), _ => done (.error fault)
  | ask request next, f => ask request fun answer => (next answer).bind f

instance : Monad Evaluation where
  pure a := .done (.ok a)
  bind := bind

instance : MonadExcept Fault Evaluation where
  throw fault := .done (.error fault)
  tryCatch
    | .done (.error fault), handle => handle fault
    | program, _ => program

/-- A step that consults no cache. -/
def ofOutcome (result : Outcome α) : Evaluation α := .done result

/-- The value of a key, through the cache: looked up, and on a miss computed and
stored. Somebody else may store a value in between; it is that one which is seen. -/
def cached (key : UtilityKey) (compute : Unit → Outcome Utilities) : Evaluation Utilities :=
  .ask (.get key) fun
    | .error fault => .done (.error fault)
    | .ok (some value) => .done (.ok value)
    | .ok none =>
      match compute () with
      | .error fault => .done (.error fault)
      | .ok value => .ask (.put key value) .done

/-- Serves the program's next request. A program that is over stays as it is. -/
def advance : Evaluation α → UtilityCache → Evaluation α × UtilityCache
  | done result, cache => (done result, cache)
  | ask request next, cache =>
    let (answer, cache) := cache.serve request
    (next answer, cache)

/-- Runs the program against one cache. -/
def run : Evaluation α → UtilityCache → Outcome α × UtilityCache
  | done result, cache => (result, cache)
  | ask request next, cache =>
    let (answer, cache) := cache.serve request
    (next answer).run cache

/-- Runs the program without a cache: every consultation computes its value. -/
def runAlone : Evaluation α → Outcome α
  | done result => result
  | ask request next => (next request.answerAlone).runAlone

end Evaluation

end Accessibility
