import Accessibility.Evaluation.Program

/-! Evaluations against any server of their requests, with a state of its own. A cache is one
(`runOn_cache`), and so is a cache that others use between two requests, or one that keeps a record of
them. What is shown for every server holds for all of these. -/
namespace Accessibility.Evaluation

variable {σ α β : Type} {serve : σ → (request : CacheRequest) → request.Answer × σ}

/-- Runs the program against a server: what it comes to, and the state that it leaves. -/
def runOn (serve : σ → (request : CacheRequest) → request.Answer × σ) : Evaluation α → σ → Outcome α × σ
  | done result, state => (result, state)
  | ask request next, state =>
    let (answer, state) := serve state request
    (next answer).runOn serve state

theorem runOn_cache (program : Evaluation α) (cache : UtilityCache) :
    program.runOn UtilityCache.serve cache = program.run cache := by
  induction program generalizing cache with
  | done result => rfl
  | ask request next ih => exact ih _ _

/-- A run goes on with the value and the state that its first part leaves. -/
theorem runOn_bind (program : Evaluation α) (f : α → Evaluation β) (state : σ) :
    (program.bind f).runOn serve state =
      match program.runOn serve state with
      | (.ok a, state) => (f a).runOn serve state
      | (.error fault, state) => (.error fault, state) := by
  induction program generalizing state with
  | done result => cases result <;> rfl
  | ask request next ih => exact ih _ _

theorem runAlone_bind (program : Evaluation α) (next : α → Evaluation β) :
    (program.bind next).runAlone = program.runAlone.bind fun value => (next value).runAlone := by
  induction program with
  | done result => cases result <;> rfl
  | ask request rest ih => exact ih _

/-- Where there is no cache nothing is found, and every write is seen as it was given. -/
def alone (state : Unit) (request : CacheRequest) : request.Answer × Unit := (request.answerAlone, state)

theorem runOn_alone (program : Evaluation α) (state : Unit) :
    program.runOn alone state = (program.runAlone, state) := by
  induction program with
  | done result => rfl
  | ask request next ih => exact ih _

end Accessibility.Evaluation
