import Accessibility.Proofs.Evaluation.Outcomes
import Accessibility.Proofs.Evaluation.Setup

/-! The gravity evaluation fails for the data alone, whatever the caches answer. A cache refuses
keys outside its dimensions, which is a fault of a lookup. -/
namespace Accessibility

theorem UtilityCache.configured_place (spec : CacheSpec) (key : UtilityKey) :
    Configured (place spec key) := by
  unfold place
  split
  · exact .error rfl
  · split
    · exact .error rfl
    · exact .ok _

theorem UtilityCache.configured_get (cache : UtilityCache) (key : UtilityKey) :
    Configured (cache.get key).1 := by
  unfold get
  split
  · rename_i refused
    exact .error (configured_place _ _ _ refused)
  · split
    · exact .error rfl
    · split <;> exact .ok _

theorem UtilityCache.configured_put (cache : UtilityCache) (key : UtilityKey) (value : Utilities) :
    Configured (cache.put key value).1 := by
  unfold put
  split
  · rename_i refused
    exact .error (configured_place _ _ _ refused)
  · split
    · exact .error rfl
    · split <;> exact .ok _

namespace Evaluation

variable {α β : Type}

/-- An evaluation that ends in no fault of the configuration, whatever the caches answer. -/
def Configured (program : Evaluation α) : Prop :=
  ∀ fault, program.MayEnd (.error fault) → fault.isConfiguration = false

namespace Configured

theorem done {outcome : Outcome α} (configured : Accessibility.Configured outcome) :
    Configured (.done outcome) := by
  intro fault ends
  exact configured fault (mayEnd_done_iff.mp ends).symm

theorem bind {program : Evaluation α} {next : α → Evaluation β} (first : Configured program)
    (onward : ∀ value, Configured (next value)) : Configured (program >>= next) := by
  intro fault ends
  rcases mayEnd_bind_iff.mp ends with ⟨own, fails, same⟩ | ⟨value, _, goesOn⟩
  · cases same
    exact first fault fails
  · exact onward value fault goesOn

theorem cached {key : UtilityKey} {compute : Unit → Outcome Utilities}
    (computed : Accessibility.Configured (compute ())) : Configured (cached key compute) := by
  intro fault ends
  cases ends with
  | ask cache ends =>
    have looked : Accessibility.Configured (cache.serve (.get key)).1 := cache.configured_get key
    generalize (cache.serve (.get key)).1 = answer at looked ends
    change Outcome (Option Utilities) at answer
    rcases answer with own | _ | value
    · exact Configured.done (.error (looked own rfl)) fault ends
    · dsimp only at ends
      generalize compute () = outcome at computed ends
      rcases outcome with own | value
      · exact Configured.done (.error (computed own rfl)) fault ends
      · cases ends with
        | ask cache ends => exact Configured.done (cache.configured_put key value) fault ends
    · cases mayEnd_done_iff.mp ends

end Configured

end Evaluation

theorem ModeConstants.configured_total (constants : ModeConstants) (market : Nat) :
    Configured (constants.total market) := by
  have row : Configured (constants.row market) := by
    unfold row
    split
    · exact .error rfl
    · dsimp only
      split
      · exact .ok _
      · exact .error rfl
  exact row.bind fun row _ => .ok _

namespace Evaluator.Gravity

theorem configured_impedance (gravity : Gravity) (zones : ZoneSystem) (origin destination : UInt32) :
    Configured (gravity.impedance zones origin destination) := by
  have distance : Configured (zones.distance origin destination) :=
    (zones.configured_zone origin).bind fun a _ => (zones.configured_zone destination).bind fun b _ => .ok _
  exact distance.bind fun distance _ => .ok _

theorem configured_cachedImpedance (gravity : Gravity) (zones : ZoneSystem)
    (origin destination : UInt32) :
    Evaluation.Configured (gravity.cachedImpedance zones origin destination) := by
  apply Evaluation.Configured.bind (.cached _)
  · intro utilities
    split
    · exact .done (.ok _)
    · exact .done (.error rfl)
  · exact (gravity.configured_impedance zones origin destination).bind fun impedance _ => .ok _

theorem configured_addWeighted (sizeTerms : SizeTermTable) (destination : UInt32) (weight : Double)
    (sums : List Double) : Configured (addWeighted sizeTerms destination weight sums) :=
  .mapM fun cell _ => (sizeTerms.configured_get destination cell.1).bind fun _ _ => .ok _

theorem configured_sumOver (gravity : Gravity) (inputs : JobInputs) (constant : Double)
    (origin : UInt32) (destinations : List Zone) (sums : List Double) :
    Evaluation.Configured (gravity.sumOver inputs constant origin destinations sums) := by
  induction destinations generalizing sums with
  | nil => exact .done (.ok sums)
  | cons destination rest ih =>
    unfold sumOver
    split
    · apply (gravity.configured_cachedImpedance inputs.zones origin destination.id).bind
      intro impedance
      exact Evaluation.Configured.bind (.done (configured_addWeighted _ _ _ _))
        fun sums => ih sums
    · exact ih sums

/-- A gravity evaluation fails for the data alone. -/
theorem configured_accessibility (gravity : Gravity) (origin : UInt32) (context : Context) :
    Evaluation.Configured (gravity.accessibility origin context) := by
  unfold accessibility
  split
  · exact .done (.error rfl)
  · split
    · exact .done (.error rfl)
    · apply Evaluation.Configured.bind (.done (ModeConstants.configured_total _ _))
      intro constant
      exact Evaluation.Configured.bind (gravity.configured_sumOver _ _ _ _ _)
        fun sums => .done (.ok _)

end Evaluator.Gravity

end Accessibility
