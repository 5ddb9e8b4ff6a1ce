import Mathlib.Logic.Function.Basic
import Accessibility.Evaluation.Evaluator

/-! What a cache goes through while evaluations share it. A history is any
interleaving: workers begin evaluations of any zones and have requests served in any
order. An evaluator is steady if every evaluation that ends, in any history, ends in
the zone's answer: what happened to the cache before, and what happens to it meanwhile,
does not show. A program that evaluates zones one after the other then has a result
that can be told from the answers alone (`run_follows`), however its requests are
interleaved with those of others (`advance_carried`). -/
namespace Accessibility
open Function (update)

namespace Evaluation

variable {α β γ : Type}

@[simp] theorem bind_done_ok (a : α) (f : α → Evaluation β) : (done (.ok a)).bind f = f a := rfl

theorem bind_assoc (program : Evaluation α) (f : α → Evaluation β) (g : β → Evaluation γ) :
    (program.bind f).bind g = program.bind fun a => (f a).bind g := by
  induction program with
  | done result => cases result <;> rfl
  | ask request next ih => exact congrArg (ask request) (funext ih)

end Evaluation

/-- A worker's evaluation of a zone, with what is left of its program. -/
structure Ongoing where
  zone : UInt32
  program : Evaluation (List Double)

namespace Evaluator

/-- The answer for a zone: that of an evaluation with a cache of its own. -/
def answer (evaluator : Evaluator) (inputs : JobInputs) (zone : UInt32) : Outcome (List Double) :=
  ((evaluator.evaluate zone (.ofJob inputs)).run (.empty inputs.cacheSpec)).1

/-- The histories of a cache that serves an evaluator on the inputs of a job. Each of
any number of workers has at most one evaluation under way. -/
inductive History (evaluator : Evaluator) (inputs : JobInputs) :
    UtilityCache → (Nat → Option Ongoing) → Prop where
  | fresh : History evaluator inputs (.empty inputs.cacheSpec) fun _ => none
  | begins {cache under} (worker : Nat) (zone : UInt32) :
    History evaluator inputs cache under →
    History evaluator inputs cache
      (update under worker (some ⟨zone, evaluator.evaluate zone (.ofJob inputs)⟩))
  | serves {cache under zone program} (worker : Nat) :
    History evaluator inputs cache under → under worker = some ⟨zone, program⟩ →
    History evaluator inputs (program.advance cache).2
      (update under worker (some ⟨zone, (program.advance cache).1⟩))

/-- A cache that has served nothing but evaluations of these inputs. -/
def Served (evaluator : Evaluator) (inputs : JobInputs) (cache : UtilityCache) : Prop :=
  ∃ under, History evaluator inputs cache under

/-- The answers do not depend on what the cache went through. -/
def Steady (evaluator : Evaluator) (inputs : JobInputs) : Prop :=
  ∀ cache under worker zone result, History evaluator inputs cache under →
    under worker = some ⟨zone, .done result⟩ → result = evaluator.answer inputs zone

theorem served_empty (evaluator : Evaluator) (inputs : JobInputs) :
    evaluator.Served inputs (.empty inputs.cacheSpec) := ⟨_, .fresh⟩

/-- In a history of an evaluator that asks for nothing every program is still whole. -/
private theorem whole_of_quiet {evaluator : Evaluator} {inputs : JobInputs}
    (quiet : ∀ zone, ∃ result, evaluator.evaluate zone (.ofJob inputs) = .done result)
    {cache under} (history : History evaluator inputs cache under) {worker zone program}
    (current : under worker = some ⟨zone, program⟩) :
    program = evaluator.evaluate zone (.ofJob inputs) := by
  induction history generalizing worker zone program with
  | fresh => cases current
  | begins other begun _ ih =>
    by_cases same : worker = other
    · subst same
      rw [Function.update_self] at current
      cases current
      rfl
    · rw [Function.update_of_ne same] at current
      exact ih current
  | @serves _ _ served _ other _ held ih =>
    by_cases same : worker = other
    · subst same
      rw [Function.update_self] at current
      cases current
      obtain ⟨result, ended⟩ := quiet served
      rw [ih held, ended]
      rfl
    · rw [Function.update_of_ne same] at current
      exact ih current

/-- An evaluator that asks for nothing is steady. -/
theorem steady_of_quiet {evaluator : Evaluator} {inputs : JobInputs}
    (quiet : ∀ zone, ∃ result, evaluator.evaluate zone (.ofJob inputs) = .done result) :
    evaluator.Steady inputs := by
  intro cache under worker zone result history current
  have whole := whole_of_quiet quiet history current
  rw [answer, ← whole]
  rfl

end Evaluator

section Following

variable {evaluator : Evaluator} {inputs : JobInputs} {α : Type} {expected : Outcome α}
  {cache : UtilityCache} {under : Nat → Option Ongoing} {worker : Nat} {program : Evaluation α}

/-- A program that evaluates zones one after the other, and whose result is the
expected one if every zone is given its answer. -/
inductive Follows (evaluator : Evaluator) (inputs : JobInputs) (expected : Outcome α) :
    Evaluation α → Prop where
  | settled : Follows evaluator inputs expected (.done expected)
  | zone (zone : UInt32) (next : List Double → Evaluation α)
    (goesOn : ∀ row, evaluator.answer inputs zone = .ok row →
      Follows evaluator inputs expected (next row))
    (fails : ∀ fault, evaluator.answer inputs zone = .error fault → expected = .error fault) :
    Follows evaluator inputs expected ((evaluator.evaluate zone (.ofJob inputs)).bind next)

/-- Where such a program stands in a history: it is over, or in the middle of a zone's
evaluation, with a request to be served. -/
def Stands (evaluator : Evaluator) (inputs : JobInputs) (expected : Outcome α)
    (current : Option Ongoing) (program : Evaluation α) : Prop :=
  program = .done expected ∨
    ∃ zone request rest next, current = some ⟨zone, .ask request rest⟩ ∧
      program = .ask request (fun answer => (rest answer).bind next) ∧
      (∀ row, evaluator.answer inputs zone = .ok row → Follows evaluator inputs expected (next row)) ∧
      ∀ fault, evaluator.answer inputs zone = .error fault → expected = .error fault

/-- The history has gone on with evaluations of one worker, whose program now stands
in it. -/
def Carried (evaluator : Evaluator) (inputs : JobInputs) (expected : Outcome α)
    (cache : UtilityCache) (under : Nat → Option Ongoing) (worker : Nat)
    (program : Evaluation α) : Prop :=
  ∃ after, evaluator.History inputs cache after ∧ (∀ other, other ≠ worker → after other = under other) ∧
    Stands evaluator inputs expected (after worker) program

/-- A program in the middle of a zone, its request served or not yet made, can be
taken to where it stands. -/
private theorem carried_of_ongoing (steady : evaluator.Steady inputs)
    (history : evaluator.History inputs cache under) {zone : UInt32}
    {rest : Evaluation (List Double)} {next : List Double → Evaluation α}
    (current : under worker = some ⟨zone, rest⟩)
    (goesOn : ∀ row, evaluator.answer inputs zone = .ok row →
      Follows evaluator inputs expected (next row) ∧
        Carried evaluator inputs expected cache under worker (next row))
    (fails : ∀ fault, evaluator.answer inputs zone = .error fault → expected = .error fault) :
    Carried evaluator inputs expected cache under worker (rest.bind next) := by
  cases rest with
  | done result =>
    have answered := steady cache under worker zone result history current
    cases result with
    | ok row => exact (goesOn row answered.symm).2
    | error fault =>
      rw [fails fault answered.symm]
      exact ⟨under, history, fun _ _ => rfl, .inl rfl⟩
  | ask request rest =>
    exact ⟨under, history, fun _ _ => rfl, .inr ⟨zone, request, rest, next, current, rfl,
      fun row answered => (goesOn row answered).1, fails⟩⟩

/-- A worker can take up any program that follows the answers. -/
theorem carried_of_follows (worker : Nat) (steady : evaluator.Steady inputs)
    (follows : Follows evaluator inputs expected program)
    (history : evaluator.History inputs cache under) :
    Carried evaluator inputs expected cache under worker program := by
  induction follows generalizing under with
  | settled => exact ⟨under, history, fun _ _ => rfl, .inl rfl⟩
  | zone zone next goesOn fails ih =>
    have begun := history.begins worker zone
    obtain ⟨after, went, others, stands⟩ :=
      carried_of_ongoing steady begun (Function.update_self ..)
        (fun row answered => ⟨goesOn row answered, ih row answered begun⟩) fails
    refine ⟨after, went, fun other different => ?_, stands⟩
    rw [others other different, Function.update_of_ne different]

/-- Serving one request takes a program from one stand to the next. -/
theorem advance_carried (steady : evaluator.Steady inputs)
    (history : evaluator.History inputs cache under)
    (stands : Stands evaluator inputs expected (under worker) program) :
    Carried evaluator inputs expected (program.advance cache).2 under worker
      (program.advance cache).1 := by
  obtain rfl | ⟨zone, request, rest, next, current, rfl, goesOn, fails⟩ := stands
  · exact ⟨under, history, fun _ _ => rfl, .inl rfl⟩
  · have served := history.serves worker current
    obtain ⟨after, went, others, stands⟩ :=
      carried_of_ongoing steady served (Function.update_self ..)
        (fun row answered => ⟨goesOn row answered,
          carried_of_follows worker steady (goesOn row answered) served⟩) fails
    refine ⟨after, went, fun other different => ?_, stands⟩
    rw [others other different, Function.update_of_ne different]

/-- Without interruption a program runs from its stand to the expected result. -/
theorem run_stands (steady : evaluator.Steady inputs)
    (history : evaluator.History inputs cache under)
    (stands : Stands evaluator inputs expected (under worker) program) :
    (program.run cache).1 = expected ∧
      ∃ after, evaluator.History inputs (program.run cache).2 after ∧
        ∀ other, other ≠ worker → after other = under other := by
  induction program generalizing cache under with
  | done result =>
    obtain same | ⟨_, _, _, _, _, impossible, _⟩ := stands
    · cases same
      exact ⟨rfl, under, history, fun _ _ => rfl⟩
    · cases impossible
  | ask request next ih =>
    obtain ⟨after, went, others, moved⟩ := advance_carried steady history stands
    obtain ⟨ended, final, arrived, kept⟩ := ih _ went moved
    refine ⟨ended, final, arrived, fun other different => ?_⟩
    rw [kept other different, others other different]

/-- A program that follows the answers has the expected result on every cache that has
served nothing but evaluations of the same inputs, and leaves it such a cache. -/
theorem run_follows (steady : evaluator.Steady inputs)
    (follows : Follows evaluator inputs expected program)
    (served : evaluator.Served inputs cache) :
    (program.run cache).1 = expected ∧ evaluator.Served inputs (program.run cache).2 := by
  obtain ⟨under, history⟩ := served
  obtain ⟨after, went, _, stands⟩ := carried_of_follows 0 steady follows history
  obtain ⟨ended, final, arrived, _⟩ := run_stands steady went stands
  exact ⟨ended, final, arrived⟩

end Following

end Accessibility
