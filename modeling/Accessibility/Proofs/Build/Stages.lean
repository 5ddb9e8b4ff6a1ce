import Accessibility.Build
import Accessibility.Proofs.Filing.Session

/-! Before a build publishes its table it looks at files, prints and gives notices, but leaves the
tree alone. -/
namespace Accessibility.Build

open Procedure

variable {lines : String → Prop}

theorem tells_announced (noted : Outcome Setup.Noted) : Tells lines (announced noted) :=
  .bind (.outcome noted) fun noted => .bind (.notices noted.notices) fun _ => .pure noted.table

theorem tells_load (path : Path) : Tells lines (ZoneFile.load path) := by
  intro site
  unfold Ends ZoneFile.load
  rw [ExceptT.run_mk, Session.runOn_bind]
  split <;> exact .refl lines site

theorem tells_schoolTerms (settings : Settings) (zones : ZoneSystem) (school : SchoolSegments) :
    Tells (fun _ => True) (schoolTerms settings zones school) := by
  unfold schoolTerms
  split
  · exact .pure _
  · apply Tells.bind (tells_announced _)
    intro table
    apply Tells.bind (.say trivial)
    intro _
    split
    · exact .pure _
    · apply Tells.bind (.outcome _)
      intro factors
      exact .bind (.say trivial) fun _ => .pure _

theorem tells_workTerms (settings : Settings) (zones : ZoneSystem) :
    Tells (fun _ => True) (workTerms settings zones) := by
  unfold workTerms
  split
  · exact .pure _
  · apply Tells.bind (tells_announced _)
    intro table
    exact .bind (.say trivial) fun _ => .pure _

theorem tells_prepare (settings : Settings) (zones : ZoneSystem) (groundwork : Groundwork) :
    Tells (fun _ => True) (prepare settings zones groundwork) := by
  unfold prepare
  apply Tells.bind (.say trivial)
  intro _
  apply Tells.bind (tells_announced _)
  intro sizeTerms
  apply Tells.bind (.say trivial)
  intro _
  apply Tells.bind (tells_schoolTerms settings zones groundwork.school)
  rintro ⟨school, factors⟩
  apply Tells.bind (tells_workTerms settings zones)
  intro work
  apply Tells.bind (.say trivial)
  intro _
  apply Tells.bind (.outcome _)
  intro evaluator
  apply Tells.bind (.outcome _)
  intro constants
  exact .bind (.say trivial) fun _ => .pure _

theorem tells_employ (threads : Nat) (evaluator : Evaluator) : Tells lines (employ threads evaluator) := by
  unfold employ
  apply Tells.bind (.outcome _)
  intro executor
  apply Tells.bind (.enlist threads)
  rintro (text | _)
  · exact .outcome (.error _)
  · exact .pure executor

theorem tells_readyJob (settings : Settings) (groundwork : Groundwork) :
    Tells lines (readyJob settings groundwork) := by
  unfold readyJob
  dsimp only
  split
  · exact (tells_employ _ _).bind fun _ => .pure _
  · exact Tells.bind (.outcome _) fun _ => .pure _

theorem ticked_ne_sizeTerms (rest : String) : "  ✓ " ++ rest ≠ "Computing size terms..." := by
  intro same
  simpa using congrArg (fun line => line.toList.head?) same

/-- Laying the groundwork prints nothing of the stages that compute. -/
theorem tells_lay (settings : Settings) :
    Tells (· ≠ "Computing size terms...") (lay settings) := by
  unfold lay
  apply Tells.bind (.say (by decide))
  intro _
  apply Tells.bind (tells_load _)
  intro zones
  apply Tells.bind (.say ?_)
  · intro _
    apply Tells.bind (.outcome _)
    intro groundwork
    refine .bind (.say ?_) fun _ => .pure _
    simp only [String.append_assoc]
    exact ticked_ne_sizeTerms _
  · simp only [String.append_assoc]
    exact ticked_ne_sizeTerms _

end Accessibility.Build
