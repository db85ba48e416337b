import BootMedia.Host.Loader
import BootMedia.Host.Search
import BootMedia.Invocation.Command
import BootMedia.Plan.Session

namespace BootMedia

namespace Host

structure Child where
  termination : Termination
  files : FileSystem
  stdout : String
  stderr : String
  elapsed : Nat

/-- Starts commands and waits for their end. One that cannot be started changes nothing. -/
abbrev Spawner := Command → FileSystem → Except SystemError Child

def received (c : Command) (e : Environment) : Environment :=
  c.environment.foldl (fun e v ↦ v.2.elim e (e.receive v.1)) (c.childEnvironment e)

def words (c : Command) : List String := c.program :: c.arguments

def textLimit : Nat := 131071

def isOversized (c : Command) : Bool :=
  let settings := c.environment.filterMap fun v ↦ v.2.map (v.1 ++ "=" ++ ·)
  (words c ++ settings).any (textLimit < ·.utf8ByteSize)

/-- Whether a command finds its program only after its environment is in place: it has to, if it
changes the search path and needs one. -/
def findsLate (c : Command) : Bool :=
  !c.program.toList.contains '/' && c.environment.any (·.1 == searchPathVariable)

def startWith (launch : Launcher) (c : Command) (u : Startup) (w : World) (p : String) :
    Except SystemError (Termination × World) := do
  let _ ← openProgram w.files (pathOf p)
  if isOversized c then .error .argumentTooLong
  else if findsLate c then startAt launch u w p
  else launch (pathOf p) u w

def enter (fs : FileSystem) : Option Path → Except SystemError FileSystem
  | none => .ok fs
  | some d => do
    let i ← fs.directory d
    return { fs with here := i }

def ownProcess : Nat := 1

def startup (c : Command) (e : Environment) : Startup where
  words := (words c).map Text.Octets.ofText
  environment :=
    ⟨(received c e).sorted.map fun v ↦ (Text.Octets.ofText v.1, Text.Octets.ofText v.2)⟩
  channels := World.ownChannels
  process := ownProcess + 1
  parent := ownProcess
  ignored := []
  mask := FileSystem.creationMask

def start (launch : Launcher) (e : Environment) : Spawner := fun c fs ↦ do
  if c.isRefused then throw .nullInCommand
  let inside ← enter fs c.directory
  let world := { World.start inside with lastProcess := ownProcess + 1 }
  let searchPath := ((c.childEnvironment e).get? searchPathVariable).map Text.Octets.ofText
  let (t, w) ←
    startFound (startWith launch c (startup c e) world) searchPath (Text.Octets.ofText c.program)
  return {
    termination := t
    files := { w.files with here := fs.here }
    stdout := Text.Octets.decode (w.written World.outputPipe)
    stderr := Text.Octets.decode (w.written World.errorPipe)
    elapsed := 0 }

def runner (spawn : Spawner) : Runner := fun i fs ↦
  match spawn i.toCommand fs with
  | .ok child =>
    ⟨.ok child.termination.exitCode, child.files, child.stdout, child.stderr, child.elapsed⟩
  | .error e => ⟨.error (.spawn i.program e), fs, "", "", 0⟩

end Host

end BootMedia
