import Accessibility.Proofs.Filing.Session
import Accessibility.Proofs.Outcome
import Accessibility.Table.Storage

/-! Procedures that end in a good value, or in a fault of one kind, on whatever site they run. -/
namespace Accessibility

/-- A fault that the configuration is not to blame for. -/
def Fault.Elsewhere (fault : Fault) : Prop := fault.isConfiguration = false

namespace Procedure

variable {α β : Type} {kind : Fault → Prop} {good : α → Prop} {right : β → Prop}

/-- A procedure that gives good values and fails with faults of one kind. -/
def Gives (kind : Fault → Prop) (good : α → Prop) (procedure : Procedure α) : Prop :=
  ∀ site, procedure.Ends site fun outcome _ => match outcome with
    | .ok value => good value
    | .error fault => kind fault

namespace Gives

theorem weaken {wider : Fault → Prop} {procedure : Procedure α} (gives : Gives kind good procedure)
    (weaker : ∀ fault, kind fault → wider fault) : Gives wider good procedure := by
  intro site
  apply (gives site).imp
  rintro (fault | value) _ ended
  · exact weaker fault ended
  · exact ended

theorem pure {value : α} (holds : good value) : Gives kind good (Pure.pure value : Procedure α) :=
  fun _ => holds

theorem bind {procedure : Procedure α} {next : α → Procedure β} (first : Gives kind good procedure)
    (onward : ∀ value, good value → Gives kind right (next value)) :
    Gives kind right (procedure >>= next) := by
  intro site
  apply (first site).bind
  · exact fun fault _ failed => failed
  · exact fun value after holds => onward value holds after

theorem outcome {outcome : Outcome α} (failed : ∀ fault, outcome = .error fault → kind fault)
    (holds : ∀ value, outcome = .ok value → good value) :
    Gives kind good (liftM outcome : Procedure α) := by
  intro site
  apply ends_outcome
  cases outcome with
  | ok value => exact holds value rfl
  | error fault => exact failed fault rfl

theorem say (line : String) :
    Gives kind (fun _ => True) (liftM (Session.say line) : Procedure Unit) := fun _ => trivial

theorem clock : Gives kind (fun _ => True) (liftM Session.clock : Procedure Nat) := fun _ => trivial

theorem notices (notices : List String) :
    Gives kind (fun _ => True) (forIn notices PUnit.unit fun notice _ => do
      Session.warn notice
      return .yield PUnit.unit : Procedure PUnit) := by
  induction notices with
  | nil =>
    rw [List.forIn_nil]
    exact .pure trivial
  | cons notice notices ih =>
    have first : Gives kind (fun _ => True)
        (do Session.warn notice; return .yield PUnit.unit : Procedure (ForInStep PUnit)) :=
      fun _ => trivial
    rw [List.forIn_cons]
    apply first.bind
    rintro (_ | _) _
    · exact .pure trivial
    · exact ih

theorem ofReply (session : Session (Except FileFault Unit)) :
    Gives Fault.Elsewhere (fun _ => True) (.ofReply session) := by
  intro site
  apply ends_ofReply
  cases (session.runOn site).1 with
  | ok value => trivial
  | error fault => rfl

end Gives

/-- A table that cannot be stored is no fault of the configuration. -/
theorem gives_store (table : AccessibilityTable) (path : Path) :
    Gives Fault.Elsewhere (fun _ => True) (table.store path) := by
  have staged : Gives Fault.Elsewhere (fun _ => True) (table.stage path) :=
    .bind (.ofReply _) fun _ _ => .bind (.ofReply _) fun _ _ => .ofReply _
  intro site
  have ended := staged site
  unfold Ends at ended ⊢
  unfold AccessibilityTable.store
  rw [ExceptT.run_mk, Session.runOn_bind]
  generalize (table.stage path).run.runOn site = found at ended
  obtain ⟨_ | ⟨⟩, after⟩ := found
  · dsimp only
    rw [Session.runOn_bind, Session.runOn_pure]
    exact ended
  · trivial

end Procedure

end Accessibility
