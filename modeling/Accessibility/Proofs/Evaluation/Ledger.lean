import Accessibility.Evaluation.Program
import Accessibility.Proofs.Cache.Ledger

/-! Evaluations over a ledger. A ledger serves the requests of an evaluation as the cache does
that it stands for, so the evaluation ends in the same result over either, and what the cache
then holds is in the ledger (`run_ledger`). Unlike a cache a ledger can be computed with. -/
namespace Accessibility

variable {spec : CacheSpec} {cache : UtilityCache} {ledger : Ledger} {α : Type}

/-- The answer of a ledger to a request, and the ledger after it. -/
def Ledger.serve (spec : CacheSpec) (ledger : Ledger) :
    (request : CacheRequest) → request.Answer × Ledger
  | .get key =>
    if spec.Accepts key then (.ok (ledger.pairs.get? key), ledger.countLookup key)
    else (.error (UtilityCache.refusalOf spec key).fault, ledger)
  | .put key value =>
    if spec.Accepts key then (.ok ((ledger.pairs.get? key).getD value), ledger.store key value)
    else (.error (UtilityCache.refusalOf spec key).fault, ledger)
  | .getDense mode leg zone tap =>
    if spec.HasCell zone tap then (.ok (ledger.cells.get? (mode, leg, zone, tap)), ledger)
    else (.error (Cache.Refusal.outsideDense mode leg zone tap spec).fault, ledger)
  | .putDense mode leg zone tap value =>
    if spec.HasCell zone tap then
      (.ok ((ledger.cells.get? (mode, leg, zone, tap)).getD value),
        { ledger with cells := ledger.cells.write (mode, leg, zone, tap) value })
    else (.error (Cache.Refusal.outsideDense mode leg zone tap spec).fault, ledger)

namespace UtilityCache

theorem Tracks.serve (tracks : cache.Tracks spec ledger) (valid : spec.validate = .ok ())
    (request : CacheRequest) :
    (cache.serve request).1 = (ledger.serve spec request).1 ∧
      (cache.serve request).2.Tracks spec (ledger.serve spec request).2 := by
  cases request with
  | get key =>
    by_cases accepts : spec.Accepts key
    · simp only [UtilityCache.serve, Ledger.serve, get_of_accepts tracks.laid accepts, if_pos accepts]
      exact ⟨congrArg Except.ok (tracks.pairs key), tracks.countLookup key⟩
    · simp only [UtilityCache.serve, Ledger.serve, get_of_refused tracks.laid accepts, if_neg accepts]
      exact ⟨rfl, tracks⟩
  | put key value =>
    by_cases accepts : spec.Accepts key
    · simp only [UtilityCache.serve, Ledger.serve, put_fst tracks.laid accepts, if_pos accepts, tracks.pairs]
      exact ⟨rfl, tracks.put valid accepts value⟩
    · simp only [UtilityCache.serve, Ledger.serve, put_of_refused tracks.laid accepts, if_neg accepts]
      exact ⟨rfl, tracks⟩
  | getDense mode leg zone tap =>
    by_cases within : spec.HasCell zone tap
    · simp only [UtilityCache.serve, Ledger.serve, getDense_of_within tracks.gridded within, if_pos within]
      exact ⟨congrArg Except.ok (tracks.cells _), tracks⟩
    · simp only [UtilityCache.serve, Ledger.serve, getDense_of_outside tracks.gridded within, if_neg within]
      exact ⟨rfl, tracks⟩
  | putDense mode leg zone tap value =>
    by_cases within : spec.HasCell zone tap
    · have written := tracks.putDense mode leg within value
      simp only [UtilityCache.serve, Ledger.serve, if_pos within]
      refine ⟨?_, written⟩
      rw [putDense_of_within tracks.gridded within, tracks.cells]
    · simp only [UtilityCache.serve, Ledger.serve, putDense_of_outside tracks.gridded within, if_neg within]
      exact ⟨rfl, tracks⟩

end UtilityCache

namespace Evaluation

/-- Runs the program over a ledger. -/
def runLedger (spec : CacheSpec) : Evaluation α → Ledger → Outcome α × Ledger
  | done result, ledger => (result, ledger)
  | ask request next, ledger =>
    let (answer, ledger) := ledger.serve spec request
    (next answer).runLedger spec ledger

/-- A program cannot tell a cache from the ledger it stands for. -/
theorem run_ledger (tracks : cache.Tracks spec ledger) (valid : spec.validate = .ok ())
    (program : Evaluation α) :
    (program.run cache).1 = (program.runLedger spec ledger).1 ∧
      (program.run cache).2.Tracks spec (program.runLedger spec ledger).2 := by
  induction program generalizing cache ledger with
  | done result => exact ⟨rfl, tracks⟩
  | ask request next ih =>
    obtain ⟨same, served⟩ := tracks.serve valid request
    simp only [run, runLedger, same]
    exact ih _ served

end Evaluation

end Accessibility
