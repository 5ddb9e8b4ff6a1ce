import Accessibility.Filing.Session
import Accessibility.Settings.Basic

/-! Settings in files. Relative paths among them start from the directory of the
file. -/
namespace Accessibility

/-- The properties that the bytes of a file write down. -/
def Properties.ofBytes (path : Path) (bytes : List UInt8) : Outcome Properties :=
  match String.fromUTF8? ⟨bytes.toArray⟩ with
  | none => .error (.io FileFault.notText.message)
  | some text =>
    match parse text with
    | .ok properties => .ok { properties with directory := path.parent? }
    | .error fault => .error (.configuration s!"{path}: {fault.message}")

/-- The properties a file writes down. -/
def Properties.load (path : Path) : Procedure Properties := ExceptT.mk do
  match ← Session.read path with
  | .unopened fault | .unreadable fault => return .error (.io fault.message)
  | .content bytes => return ofBytes path bytes

/-- The settings a file writes down. -/
def Settings.load (path : Path) (processors : Nat) : Procedure Settings := do
  let properties ← Properties.load path
  Settings.ofProperties properties processors

end Accessibility
