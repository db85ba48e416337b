import BootMedia.Process.Signal
import BootMedia.Shell.Number
import BootMedia.Shell.Options
import BootMedia.Shell.Parser
import BootMedia.Shell.Variable

namespace BootMedia.Shell

/-- What a script has asked to leave, and not yet left. -/
inductive Leaving where
  | none
  | loops (count : Nat) (goesOn : Bool)
  | function (isDecided : Bool)
deriving DecidableEq, Repr

structure Job where
  number : Nat
  process : Nat
  signals : List Nat
  run : World → Termination × World
  outcome : Option Termination
  isWaited : Bool

structure Function where
  line : Nat
  body : Command

/-- Something that a function has changed, as it was before. -/
inductive Kept where
  | variable (name : String) (before : Option Variable)
  | options (before : Options)

structure Scan where
  index : Nat
  offset : Option Nat
deriving DecidableEq, Repr

def Scan.start : Scan := ⟨1, none⟩

structure State where
  world : World
  channels : Channels
  process : Nat
  /-- The number under which the shell was started, of which the process may be a copy. -/
  shell : Nat
  name : String
  arguments : List String
  bindings : Variables
  functions : List (String × Function)
  aliases : List (String × String)
  documents : List (Nat × Word)
  nextDocument : Nat
  options : Options
  status : Nat
  line : Nat
  speaker : Option String
  leaving : Leaving
  loops : Nat
  /-- What is done on a signal, or nothing if the text is empty. The signal without a number stands
  for the end of the shell. -/
  traps : List (Nat × String)
  noticed : List Nat
  untrapped : Option Nat
  locals : List (List Kept)
  jobs : List Job
  lastJob : Option Nat
  mask : Nat
  directory : String
  outputStatus : Nat
  scan : Scan
  ignored : List Nat
  tracked : List (String × String)

inductive Stop where
  | error
  | exit (isWanted : Bool)
  | ended (t : Termination)

abbrev Act := ExceptT Stop (StateM State)

def misuse : Nat := 2

def notExecutable : Nat := 126

def unknownCommand : Nat := 127

namespace Act

def setStatus (status : Nat) : Act Unit := modify ({ · with status := status })

def tryWrite (channel : Nat) (text : String) : Act (Except SystemError Unit) := do
  let s ← get
  match s.channels.lookup channel with
  | none => return .error .badChannel
  | some stream =>
    match s.world.write stream text with
    | .ok w =>
      set { s with world := w }
      return .ok ()
    | .error e => return .error e

def say (channel : Nat) (text : String) : Act Unit := do
  let _ ← tryWrite channel text

def complain (text : String) : Act Unit := do
  let s ← get
  let speaker := s.speaker.elim "" (· ++ ": ")
  say 2 (s.name ++ ": " ++ toString s.line ++ ": " ++ speaker ++ text ++ "\n")

def fail {α : Type} (text : String) : Act α := do
  complain text
  setStatus misuse
  throw .error

def statusOf (t : Termination) : Nat := t.exitCode.toNat

def valueOf? (name : String) : Act (Option String) := return (← get).bindings.value? name

def noteChange (name value : String) : Act Unit := do
  if name = "OPTIND" then
    match Number.count? value with
    | some n => modify ({ · with scan := ⟨max n 1, none⟩ })
    | none => fail ("Illegal number: " ++ value)
  if name = "PATH" then modify ({ · with tracked := [] })

def guardVariable (name : String) : Act Unit := do
  if ((← get).bindings.find name).isReadOnly then fail (name ++ ": is read only")

def assign (name value : String) : Act Unit := do
  guardVariable name
  noteChange name value
  modify fun s ↦
    let vs := s.bindings.set name value
    { s with
      bindings :=
        if s.options.exportsAll then vs.modify name ({ · with isExported := true }) else vs }

def guardName (name : String) : Act Unit := do
  if !isName name then fail (name ++ ": bad variable name")

def assignNamed (name value : String) : Act Unit := do
  guardName name
  assign name value

def number (text : String) : Act Nat :=
  match Number.count? text with
  | some n => return n
  | none => fail ("Illegal number: " ++ text)

def environment : Act Environment := return ⟨(← get).bindings.exported⟩

end Act

end BootMedia.Shell
