import Accessibility.Filing.Session
import Accessibility.Zone.File

/-! Zone systems in files. -/
namespace Accessibility.ZoneFile

/-- Names the file that malformed input was found in. -/
def locateFault (path : Path) : Fault → Fault
  | .invalidInput text => .invalidInput s!"{path}: {text}"
  | fault => fault

/-- The zone system a file holds. -/
def load (path : Path) : Procedure ZoneSystem := ExceptT.mk do
  match ← Session.read path with
  | .unopened fault => return .error (.io fault.message)
  | .unreadable fault => return .error (.invalidInput s!"{path}: zone header: {fault.message}")
  | .content bytes => return (read bytes).mapError (locateFault path)

end Accessibility.ZoneFile
