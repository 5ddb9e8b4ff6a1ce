import Accessibility.Filing.Path
import Accessibility.Number.Decimal
import Accessibility.Packet.Range

/-! Arguments of the command line. A command has options with a value and switches
without one. A long option takes its value from behind an equals sign or from the
next argument; short ones may stand together behind one hyphen, and one with a value
takes the rest of its argument. An option is given at most once, and an argument that
looks like an option is never a value. Two hyphens end the options, and nothing may
follow them. Arguments that do not fit are refused as a whole, and a request for help
is among them. -/
namespace Accessibility

/-- What the program is asked to do. -/
inductive Command where
  /-- Build the accessibility table, or reuse the one there is. -/
  | build (config : Path) (reuse : Bool)
  /-- Print the school and work segments of the configured zones. -/
  | segments (config : Path)
  /-- Print the packets of a number of zones. -/
  | packets (zones packetSize : UInt64)
  deriving DecidableEq, Repr

/-- A command with the switch that every command has. -/
structure Invocation where
  verbose : Bool
  command : Command
  deriving DecidableEq, Repr

namespace Arguments

/-- An option or a switch. -/
inductive Flag where
  | verbose
  | config
  | reuse
  | zones
  | packetSize
  deriving DecidableEq, Repr

namespace Flag

def long : Flag → String
  | verbose => "verbose"
  | config => "config"
  | reuse => "reuse"
  | zones => "zones"
  | packetSize => "packet-size"

def short? : Flag → Option Char
  | verbose => some 'v'
  | config => some 'c'
  | _ => none

def takesValue : Flag → Bool
  | verbose | reuse => false
  | config | zones | packetSize => true

end Flag

/-- Flags with their values; that of a switch is empty. -/
abbrev Given := List (Flag × String)

/-- What short flags behind one hyphen give, and the one that still needs a value. -/
def cluster (allowed : List Flag) : List Char → Option (Given × Option Flag)
  | [] => some ([], none)
  | c :: rest => do
    let flag ← allowed.find? (·.short? = some c)
    if flag.takesValue then
      match rest with
      | [] => return ([], some flag)
      | '=' :: value => return ([(flag, String.ofList value)], none)
      | value => return ([(flag, String.ofList value)], none)
    else
      let (given, pending) ← cluster allowed rest
      return ((flag, "") :: given, pending)

/-- What one long flag gives, behind its two hyphens. -/
def longFlag (allowed : List Flag) (cs : List Char) : Option (Given × Option Flag) := do
  let name := String.ofList (cs.takeWhile (· ≠ '='))
  let flag ← allowed.find? (·.long = name)
  match cs.dropWhile (· ≠ '='), flag.takesValue with
  | [], true => return ([], some flag)
  | [], false => return ([(flag, "")], none)
  | _ :: value, true => return ([(flag, String.ofList value)], none)
  | _ :: _, false => none

/-- What one argument gives. -/
def argument (allowed : List Flag) : List Char → Option (Given × Option Flag)
  | '-' :: '-' :: rest => longFlag allowed rest
  | '-' :: c :: rest => cluster allowed (c :: rest)
  | _ => none

/-- Whether an argument looks like an option; a lone hyphen does not. -/
def isOption (argument : String) : Bool :=
  match argument.toList with
  | '-' :: _ :: _ => true
  | _ => false

/-- What arguments give when only flags are allowed. -/
def options (allowed : List Flag) : List String → Option Given
  | [] => some []
  | next :: rest =>
    if next = "--" then if rest.isEmpty then some [] else none
    else
      match argument allowed next.toList with
      | none => none
      | some (given, none) => (options allowed rest).map (given ++ ·)
      | some (given, some flag) =>
        match rest with
        | [] => none
        | value :: rest =>
          if isOption value then none
          else (options allowed rest).map fun others => given ++ (flag, value) :: others

/-- What arguments give when every flag may be given once. -/
def optionsOnce (allowed : List Flag) (arguments : List String) : Option Given := do
  let given ← options allowed arguments
  if (given.map (·.1)).Nodup then return given else none

def Given.value? (given : Given) (flag : Flag) : Option String :=
  (given.find? (·.1 = flag)).map (·.2)

def Given.has (given : Given) (flag : Flag) : Bool := (given.value? flag).isSome

/-- The path a flag gives, which must not be empty. -/
def Given.path? (given : Given) (flag : Flag) : Option Path := do
  let text ← given.value? flag
  if text.isEmpty then none else return ⟨text⟩

/-- The 64-bit number a flag gives. -/
def Given.number? (given : Given) (flag : Flag) : Option UInt64 := do
  let text ← given.value? flag
  let number ← wholeBelow? UInt64.size text
  return number.toUInt64

/-- A command of the given name, from the arguments behind it. -/
def commandOf (name : String) (arguments : List String) : Option Invocation :=
  if name = "build" then do
    let given ← optionsOnce [.config, .reuse, .verbose] arguments
    let config ← given.path? .config
    return ⟨given.has .verbose, .build config (given.has .reuse)⟩
  else if name = "segments" then do
    let given ← optionsOnce [.config, .verbose] arguments
    let config ← given.path? .config
    return ⟨given.has .verbose, .segments config⟩
  else if name = "packets" then do
    let given ← optionsOnce [.zones, .packetSize, .verbose] arguments
    let zones ← given.number? .zones
    if given.has .packetSize then
      let packetSize ← given.number? .packetSize
      return ⟨given.has .verbose, .packets zones packetSize⟩
    else return ⟨given.has .verbose, .packets zones Packet.defaultSize⟩
  else none

def commandNames : List String := ["build", "segments", "packets"]

end Arguments

open Arguments in
/-- The invocation that arguments write down: a command, with its flags behind it and
the switch of every command before it or behind it. -/
def Invocation.ofArguments? (arguments : List String) : Option Invocation := do
  let before := arguments.takeWhile (· ∉ commandNames)
  match arguments.dropWhile (· ∉ commandNames) with
  | [] => none
  | name :: rest =>
    if "--" ∈ before then none
    else
      let given ← optionsOnce [.verbose] before
      let invocation ← commandOf name rest
      return { invocation with verbose := given.has .verbose || invocation.verbose }

end Accessibility
