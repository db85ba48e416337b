import BootMedia.Shell.Evaluation

namespace BootMedia.Shell

def workingDirectory (fs : FileSystem) (e : Environment) : String :=
  match e.get? "PWD" with
  | some p =>
    let isHere := (fs.resolve (pathOf p)).toOption == some fs.here
    if Path.startsAtRoot p && isHere then p else Directory.physical fs
  | none => Directory.physical fs

def State.start (u : Startup) (w : World) : State :=
  let here := workingDirectory w.files u.environment
  let vs := (Variables.ofEnvironment u.environment u.parent).set "PWD" here
  { world := w
    channels := u.channels
    process := u.process
    shell := u.process
    name := u.words.headD ""
    arguments := []
    bindings := vs.modify "PWD" ({ · with isExported := true })
    functions := []
    aliases := []
    documents := []
    nextDocument := 0
    options := .none
    status := 0
    line := 0
    speaker := none
    leaving := .none
    loops := 0
    traps := []
    noticed := []
    untrapped := none
    locals := []
    jobs := []
    lastJob := none
    mask := u.mask
    directory := here
    outputStatus := 0
    scan := .start
    ignored := u.ignored
    tracked := [] }

def readChannel (n : Nat) : Act String := do
  let s ← get
  match s.channels.lookup n with
  | none => return ""
  | some stream =>
    match s.world.readAll stream with
    | .error _ => return ""
    | .ok (text, w) =>
      modify ({ · with world := w })
      return text

def runInput (inner : Inner) : Act Unit := do
  Evaluation.script inner true .plain (← readChannel 0)

def setWords (words : List String) : Act Unit := do
  if let name :: arguments := words then
    modify ({ · with name := name, arguments := arguments })

/-- Does what the words on the command line of the shell ask for: it runs a command given there, a
script from a file or what there is to read. -/
def perform (inner : Inner) (words : List String) : Act Unit := do
  match OptionReading.ofWords true .none words.tail with
  | .error text => Act.fail text
  | .ok r =>
    Act.say 1 r.shown
    let readsInput := r.options.isOn "stdin"
    match r.isCommand, r.rest with
    | true, [] => Act.fail "-c requires an argument"
    | true, text :: rest =>
      setWords rest
      modify ({ · with options := r.options })
      Evaluation.script inner false ⟨false, !readsInput⟩ text
      if readsInput then runInput inner
    | false, rest =>
      if readsInput || rest.isEmpty then
        modify ({ · with options := r.options.switch "stdin" true, arguments := rest })
        runInput inner
      else
        let text ← Builtin.readScript (rest.headD "")
        setWords rest
        modify ({ · with options := r.options })
        Evaluation.script inner true .plain text

def run (launch : Launcher) : Program := fun u w ↦
  let inner := Inner.full launch
  let (t, s) := (do
    let result ← (perform inner u.words).run
    finish inner result : StateM State Termination).run (.start u w)
  (t, s.world)

end BootMedia.Shell
