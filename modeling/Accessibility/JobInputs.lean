import Accessibility.Cache.Spec
import Accessibility.ModeConstants
import Accessibility.SizeTerm.Table
import Accessibility.Zone.System

/-! What every worker of a job reads besides its packets. -/
namespace Accessibility

/-- The read-only inputs of a job. -/
structure JobInputs where
  zones : ZoneSystem
  sizeTerms : SizeTermTable
  constants : ModeConstants
  /-- Dimensions of the caches that workers set up for themselves. -/
  cacheSpec : CacheSpec
  deriving DecidableEq, Repr, Inhabited

end Accessibility
