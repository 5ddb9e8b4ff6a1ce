import Accessibility.CommandLine.Run

/-! The program: takes its arguments, performs the steps of the command on the real
file system, and reports a failure on the error stream. Nothing is decided here. -/
namespace Accessibility.Main

/-- The refusal that an error of the system stands for. -/
def faultOf : IO.Error → FileFault
  | .noFileOrDirectory .. => .notFound
  | .alreadyExists .. => .alreadyExists
  | .inappropriateType _ code _ => if code = 21 then .isDirectory else .notDirectory
  | .resourceBusy .. => .busy
  | .invalidArgument _ code _ => if code = 36 then .nameTooLong else .pathCutShort
  | error => .other (toString error)

/-- The result of an action, or why it was refused. -/
def tried {α : Type} (action : IO α) : IO (Except FileFault α) := do
  try return .ok (← action) catch error => return .error (faultOf error)

/-- What is found at a path: a directory can be opened, but not read. -/
def probe (path : String) : IO Presence := do
  match ← tried (IO.FS.Handle.mk path .read) with
  | .error _ => return .absent
  | .ok handle =>
    match ← tried (handle.read 1) with
    | .error .isDirectory => return .directory
    | _ => return .file

def read (path : String) : IO Reading := do
  match ← tried (IO.FS.Handle.mk path .read) with
  | .error fault => return .unopened fault
  | .ok handle =>
    match ← tried handle.readBinToEnd with
    | .error fault => return .unreadable fault
    | .ok bytes => return .content bytes.toList

/-- Performs one step of a session. -/
def perform : (step : Act) → IO step.Reply
  | .say line => IO.println line
  | .warn notice => IO.eprintln notice
  | .clock => IO.monoMsNow
  -- The workers' steps are all taken in this process, for which no thread has to be started.
  | .enlist _ => return .ok ()
  | .probe path => probe path.text
  | .read path => read path.text
  | .create path => tried do
    let _ ← IO.FS.Handle.mk path.text .write
  | .write path bytes => tried (IO.FS.writeBinFile path.text ⟨bytes.toArray⟩)
  | .rename source target => tried (IO.FS.rename source.text target.text)
  | .remove path => tried (IO.FS.removeFile path.text)
  | .createDirectory path => tried (IO.FS.createDir path.text)

/-- Number of processors, or one where the system does not tell. -/
def processors : IO Nat := do
  try
    let text ← IO.FS.readFile "/proc/cpuinfo"
    return max 1 ((text.splitOn "\n").filter (·.startsWith "processor")).length
  catch _ => return 1

def usage : String :=
  "Usage: build --config <FILE> [--reuse] | segments --config <FILE> | packets --zones <N> [--packet-size <N>]"

end Accessibility.Main

open Accessibility in
/-- Runs the command that the arguments name. -/
def main (arguments : List String) : IO UInt32 := do
  match Invocation.ofArguments? arguments with
  | none =>
    IO.eprintln Main.usage
    return 2
  | some invocation =>
    let session := (invocation.command.run (← Main.processors)).run
    match ← session.interpret Main.perform with
    | .ok () => return 0
    | .error failure =>
      IO.eprintln s!"❌ Error: {failure.message}"
      return 1
