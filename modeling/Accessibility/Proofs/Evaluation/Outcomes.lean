import Accessibility.Proofs.Evaluation.History
import Accessibility.Proofs.Evaluation.Service

/-! The results that an evaluation may end in, whatever the caches answer that serve its
requests. A run against a cache ends in one of them, and so does an evaluation whose
requests are served one at a time while others use the cache. What holds of all of them
needs no history of the cache. -/
namespace Accessibility.Evaluation

variable {α β : Type}

/-- Some caches, one for each request, lead the evaluation to the result. -/
inductive MayEnd : Evaluation α → Outcome α → Prop where
  | done (result : Outcome α) : MayEnd (.done result) result
  | ask {request : CacheRequest} {next : request.Answer → Evaluation α} {result : Outcome α}
      (cache : UtilityCache) (goesOn : MayEnd (next (cache.serve request).1) result) :
      MayEnd (.ask request next) result

theorem mayEnd_run (program : Evaluation α) (cache : UtilityCache) :
    program.MayEnd (program.run cache).1 := by
  induction program generalizing cache with
  | done result => exact .done result
  | ask request next ih => exact .ask cache (ih _ _)

/-- Serving a request leaves only results that there were before. -/
theorem MayEnd.of_advance {program : Evaluation α} {cache : UtilityCache} {result : Outcome α}
    (ends : (program.advance cache).1.MayEnd result) : program.MayEnd result := by
  cases program with
  | done _ => exact ends
  | ask request next => exact .ask cache ends

@[simp] theorem mayEnd_done_iff {given result : Outcome α} :
    (done given).MayEnd result ↔ result = given := by
  constructor
  · rintro ⟨⟩
    rfl
  · rintro rfl
    exact .done _

/-- What goes on with a value ends as the first part fails, or as the rest does with a value
that the first part may give. -/
theorem mayEnd_bind_iff {program : Evaluation α} {f : α → Evaluation β} {result : Outcome β} :
    (program.bind f).MayEnd result ↔
      (∃ fault, program.MayEnd (.error fault) ∧ result = .error fault) ∨
        ∃ a, program.MayEnd (.ok a) ∧ (f a).MayEnd result := by
  constructor
  · intro ends
    induction program with
    | done given =>
      cases given with
      | ok a => exact .inr ⟨a, .done _, ends⟩
      | error fault => exact .inl ⟨fault, .done _, mayEnd_done_iff.mp ends⟩
    | ask request next ih =>
      cases ends with
      | ask cache goesOn =>
        obtain ⟨fault, fails, same⟩ | ⟨a, gives, rest⟩ := ih _ goesOn
        · exact .inl ⟨fault, .ask cache fails, same⟩
        · exact .inr ⟨a, .ask cache gives, rest⟩
  · rintro (⟨fault, fails, rfl⟩ | ⟨a, gives, rest⟩)
    · generalize same : Except.error fault = found at fails
      induction fails with
      | done given =>
        subst same
        exact .done _
      | ask cache _ ih => exact .ask cache (ih same)
    · generalize same : Except.ok a = found at gives
      induction gives with
      | done given =>
        subst same
        exact rest
      | ask cache _ ih => exact .ask cache (ih same)

/-- A run goes on with the value and the cache that its first part leaves. -/
theorem run_bind (program : Evaluation α) (f : α → Evaluation β) (cache : UtilityCache) :
    (program.bind f).run cache =
      match program.run cache with
      | (.ok a, cache) => (f a).run cache
      | (.error fault, cache) => (.error fault, cache) := by
  simp only [← runOn_cache, runOn_bind]
  rcases program.runOn UtilityCache.serve cache with ⟨_ | _, _⟩ <;> rfl

end Accessibility.Evaluation

namespace Accessibility.Evaluator

/-- A number that an evaluation of some zone may give among its values. -/
def MayGive (evaluator : Evaluator) (context : Context) (x : Double) : Prop :=
  ∃ zone row, (evaluator.evaluate zone context).MayEnd (.ok row) ∧ x ∈ row

/-- The rows that zones are given one after the other on one cache, up to the first zone
that fails. -/
def rowsOn (evaluator : Evaluator) (context : Context) :
    List UInt32 → UtilityCache → List (List Double)
  | [], _ => []
  | zone :: rest, cache =>
    match (evaluator.evaluate zone context).run cache with
    | (.ok row, cache) => row :: evaluator.rowsOn context rest cache
    | (.error _, _) => []

end Accessibility.Evaluator
