import BootMedia.Shell.Child
import BootMedia.Shell.Redirection

namespace BootMedia.Shell

namespace Search

def paths (searchPath name : String) : List String :=
  if name.toList.contains '/' then [name]
  else
    (searchPath.toList.splitOn ':').map fun entry ↦
      if entry.isEmpty then name else .ofList entry ++ "/" ++ name

def refusal? (fs : FileSystem) (path : String) : Option SystemError :=
  match fs.resolve (pathOf path) with
  | .error e => some e
  | .ok i => if (fs.fileAt? i).any (·.isExecutable) then none else some .accessDenied

/-- Of two reasons the one that is reported: a later one, unless it says only that there is nothing.
-/
def worse (earlier later : SystemError) : SystemError :=
  match later with
  | .notFound | .notDirectory => earlier
  | e => e

def find (fs : FileSystem) : SystemError → List String → Except SystemError (List String)
  | worst, [] => .error worst
  | worst, p :: ps =>
    match refusal? fs p with
    | none => .ok (p :: ps)
    | some e => find fs (worse worst e) ps

end Search

def searchPath : Act String := return (← Act.valueOf? "PATH").getD ""

def track (name path : String) : Act Unit := modify fun s ↦
  { s with
    tracked :=
      if s.tracked.any (·.1 == name) then
        s.tracked.map fun t ↦ if t.1 == name then (name, path) else t
      else s.tracked ++ [(name, path)] }

def findProgram (path name : String) : Act (Except SystemError (List String)) := do
  if name.toList.contains '/' then return .ok [name]
  let s ← get
  let found := Search.find s.world.files .notFound (Search.paths path name)
  if path = (← searchPath) then
    if let .ok (p :: _) := found then track name p
  return found

section Start

def executionStatus : SystemError → Nat
  | .notFound | .notDirectory | .nameTooLong | .linkLoop => unknownCommand
  | _ => notExecutable

def startup (process : Nat) (words : List String) : Act Startup := do
  let s ← get
  return {
    words := words
    environment := ← Act.environment
    channels := s.channels
    process := process
    parent := s.process
    ignored := s.ignored ++ (s.traps.filter (·.2.isEmpty)).map (·.1)
    mask := s.mask }

def launchFirst (inner : Inner) (u : Startup) (w : World) :
    SystemError → List String → Except SystemError (Termination × World)
  | worst, [] => .error worst
  | worst, p :: ps =>
    match inner.launch (pathOf p) u w with
    | .ok result => .ok result
    | .error .badExecutable =>
      let words := shellFile.text :: p :: u.words.tail
      match inner.launch shellFile { u with words := words } w with
      | .ok result => .ok result
      | .error e => launchFirst inner u w (Search.worse worst e) ps
    | .error e => launchFirst inner u w (Search.worse worst e) ps

/-- Runs a program as the given process, or answers why none of the paths can be run. The working
directory of the shell stays. -/
def runProgram (inner : Inner) (process : Nat) (words paths : List String) :
    Act (Except SystemError Termination) := do
  let u ← startup process words
  let s ← get
  match launchFirst inner u s.world .notFound paths with
  | .ok (t, w) =>
    set { s with world := { w with files := { w.files with here := s.world.files.here } } }
    return .ok t
  | .error e => return .error e

def complainOf (name : String) (e : SystemError) : Act Nat := do
  Act.complain (name ++ ": " ++ executionTrouble e)
  return executionStatus e

def runChild (inner : Inner) (words paths : List String) : Act Nat := do
  match ← runProgram inner (← newProcess) words paths with
  | .ok t =>
    receiveAll
    reportEnd t
    return Act.statusOf t
  | .error e => complainOf (words.headD "") e

def becomeProgram {α : Type} (inner : Inner) (words paths : List String) : Act α := do
  match ← runProgram inner (← get).process words paths with
  | .ok t => throw (.ended t)
  | .error e =>
    Act.setStatus (← complainOf (words.headD "") e)
    throw (.exit false)

end Start

end BootMedia.Shell
