import Accessibility.Filing.Session
import Accessibility.Table.Text

/-! Tables in files. A table is written to a staging file beside its target and takes
the target's place only once it is complete; a table that cannot be written leaves no
staging file behind. -/
namespace Accessibility.AccessibilityTable

/-- The extension of staging files. -/
def stagingExtension : String := "partial"

/-- Where a table is staged on its way to a path. -/
def stagingPath (path : Path) : Path := path.withExtension stagingExtension

/-- Creates the staging file, fills it and moves it to its target. -/
def stage (table : AccessibilityTable) (path : Path) : Procedure Unit := do
  .ofReply (.create (stagingPath path))
  .ofReply (.write (stagingPath path) table.bytes)
  .ofReply (.rename (stagingPath path) path)

/-- Writes a table to a path. -/
def store (table : AccessibilityTable) (path : Path) : Procedure Unit := ExceptT.mk do
  let outcome ← (table.stage path).run
  match outcome with
  | .ok () => return .ok ()
  | .error fault =>
    let _ ← Session.remove (stagingPath path)
    return .error fault

/-- Names the file that malformed input was found in. -/
def locateFault (path : Path) : Fault → Fault
  | .invalidInput text => .invalidInput s!"{path}: {text}"
  | fault => fault

/-- The table a file holds. -/
def load (path : Path) : Procedure AccessibilityTable := ExceptT.mk do
  match ← Session.read path with
  | .unopened fault => return .error (.io fault.message)
  | .unreadable fault => return .error (.invalidInput s!"{path}: table header: {fault.message}")
  | .content bytes => return (read bytes).mapError (locateFault path)

end Accessibility.AccessibilityTable
