import Accessibility.Fault
import Accessibility.Filing.Tree

/-! Sessions: programs whose steps are progress lines, notices, looks at the clock, file
operations and calls for workers, one at a time. A session says nothing about how its
steps are performed: `interpret` performs them in any monad, and `Site` performs them on
a file tree of its own, where any step that changes the tree may be interrupted. -/
namespace Accessibility

/-- One step of a session. -/
inductive Act where
  /-- Prints a line of progress. -/
  | say (line : String)
  /-- Gives a notice that is no part of the output. -/
  | warn (notice : String)
  /-- Reads the clock, in milliseconds. -/
  | clock
  /-- Has the system set up a pool of workers. -/
  | enlist (threads : Nat)
  /-- Looks what is at a path. -/
  | probe (path : Path)
  /-- Reads a whole file. -/
  | read (path : Path)
  /-- Creates an empty file, or empties the one that is there. -/
  | create (path : Path)
  /-- Writes bytes into a file just created. -/
  | write (path : Path) (bytes : List UInt8)
  /-- Moves a file to a path, in place of a file there. -/
  | rename (source target : Path)
  | remove (path : Path)
  | createDirectory (path : Path)
  deriving DecidableEq, Repr

/-- What a step answers. -/
def Act.Reply : Act → Type
  | say _ | warn _ => Unit
  | clock => Nat
  | enlist _ => Except String Unit
  | probe _ => Presence
  | read _ => Reading
  | create _ | write .. | rename .. | remove _ | createDirectory _ => Except FileFault Unit

/-- A program of steps that ends in a value. -/
inductive Session (α : Type) where
  | done (value : α)
  | act (act : Act) (next : act.Reply → Session α)

namespace Session

variable {α β : Type}

def bind : Session α → (α → Session β) → Session β
  | done value, f => f value
  | act step next, f => act step fun reply => (next reply).bind f

instance : Monad Session where
  pure := done
  bind := bind

/-- The session of one step. -/
def perform (step : Act) : Session step.Reply := act step done

def say (line : String) : Session Unit := perform (.say line)

def warn (notice : String) : Session Unit := perform (.warn notice)

def clock : Session Nat := perform .clock

def enlist (threads : Nat) : Session (Except String Unit) := perform (.enlist threads)

def probe (path : Path) : Session Presence := perform (.probe path)

def read (path : Path) : Session Reading := perform (.read path)

def create (path : Path) : Session (Except FileFault Unit) := perform (.create path)

def write (path : Path) (bytes : List UInt8) : Session (Except FileFault Unit) :=
  perform (.write path bytes)

def rename (source target : Path) : Session (Except FileFault Unit) :=
  perform (.rename source target)

def remove (path : Path) : Session (Except FileFault Unit) := perform (.remove path)

def createDirectory (path : Path) : Session (Except FileFault Unit) :=
  perform (.createDirectory path)

/-- Creates the first of a path's ancestors and before it those above it that are
missing. A directory that is there already will do. -/
def createDirectories : List Path → Session (Except FileFault Unit)
  | [] => return .ok ()
  | path :: above => do
    if path.text.isEmpty then return .ok ()
    let settle (reply : Except FileFault Unit) : Session (Except FileFault Unit) := do
      match reply with
      | .ok () => return .ok ()
      | .error fault =>
        match ← probe path with
        | .directory => return .ok ()
        | _ => return .error fault
    match ← createDirectory path with
    | .error .notFound =>
      match ← createDirectories above with
      | .error fault => return .error fault
      | .ok () => settle (← createDirectory path)
    | reply => settle reply

/-- Performs the steps one after the other. -/
def interpret {m : Type → Type} [Monad m] (performer : (step : Act) → m step.Reply) :
    Session α → m α
  | done value => pure value
  | act step next => do
    let reply ← performer step
    (next reply).interpret performer

end Session

/-- A session that may end in a fault. -/
abbrev Procedure := ExceptT Fault Session

/-- The reply of a file operation as the outcome of a procedure. -/
def Procedure.ofReply (reply : Session (Except FileFault Unit)) : Procedure Unit :=
  ExceptT.mk do
    match ← reply with
    | .ok () => return .ok ()
    | .error fault => return .error (.io fault.message)

/-- Why a step that changes files is not carried out. -/
structure Interruption where
  fault : FileFault
  /-- Number of bytes that an interrupted write still puts into the file. -/
  kept : Nat := 0
  deriving DecidableEq, Repr

/-- A file tree with what sessions printed over it. -/
structure Site where
  tree : FileTree
  said : List String := []
  notices : List String := []
  /-- For each coming step that creates, writes or renames, whether it is
  interrupted; steps past the list are not. -/
  interruptions : List (Option Interruption) := []
  /-- What the clock shows. -/
  time : Nat := 0
  /-- Why the system sets up no pool of workers, if it does not. -/
  unpooled : Option String := none
  deriving DecidableEq, Repr

namespace Site

/-- Carries out a change of the tree, unless it is interrupted; `halfway` is what an
interruption leaves behind. -/
def change (site : Site) (halfway : Interruption → FileTree)
    (result : Except FileFault FileTree) : Except FileFault Unit × Site :=
  match site.interruptions.headD none with
  | some interruption =>
    (.error interruption.fault,
      { site with tree := halfway interruption, interruptions := site.interruptions.tail })
  | none =>
    match result with
    | .ok tree => (.ok (), { site with tree, interruptions := site.interruptions.tail })
    | .error fault => (.error fault, { site with interruptions := site.interruptions.tail })

/-- The tree after a write that was interrupted. -/
def halfWritten (tree : FileTree) (path : Path) (bytes : List UInt8) (interruption : Interruption) :
    FileTree :=
  match tree.write path (bytes.take interruption.kept) with
  | .ok tree => tree
  | .error _ => tree

/-- Performs one step. Removing a file is never interrupted. -/
def perform (site : Site) : (step : Act) → step.Reply × Site
  | .say line => ((), { site with said := site.said ++ [line] })
  | .warn notice => ((), { site with notices := site.notices ++ [notice] })
  | .clock => (site.time, site)
  | .enlist _ => (match site.unpooled with | some text => .error text | none => .ok (), site)
  | .probe path => (site.tree.probe path, site)
  | .read path => (site.tree.read path, site)
  | .create path => site.change (fun _ => site.tree) (site.tree.create path)
  | .write path bytes =>
    site.change (halfWritten site.tree path bytes) (site.tree.write path bytes)
  | .rename source target => site.change (fun _ => site.tree) (site.tree.rename source target)
  | .createDirectory path => site.change (fun _ => site.tree) (site.tree.createDirectory path)
  | .remove path =>
    match site.tree.remove path with
    | .ok tree => (.ok (), { site with tree })
    | .error fault => (.error fault, site)

end Site

/-- Runs a session on a site. -/
def Session.runOn {α : Type} (session : Session α) (site : Site) : α × Site :=
  (session.interpret (m := StateM Site) fun step site => site.perform step).run site

end Accessibility
