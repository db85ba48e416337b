import BootMedia.Process.Startup
import BootMedia.Shell.State

namespace BootMedia.Shell

structure Manner where
  isTested : Bool
  isLast : Bool
deriving DecidableEq, Repr

namespace Manner

def plain : Manner := ⟨false, false⟩

def tested : Manner := ⟨true, false⟩

def andThenMore (m : Manner) : Manner := { m with isLast := false }

end Manner

/-- What commands need that hold other commands: the shell for what is nested less deep, and the
way to other programs. -/
structure Inner where
  evaluate : Manner → Command → Act Unit
  script (isFile isTested : Bool) (text : String) : Act Unit
  launch : Launcher

section Signals

def receive (n : Nat) : Act Unit := do
  let s ← get
  let arranged :=
    if Signal.inevitable.contains n then none
    else if s.ignored.contains n then some ""
    else s.traps.lookup n
  match arranged, Signal.ofNumber? n with
  | some action, _ => if !action.isEmpty then set { s with noticed := s.noticed ++ [n] }
  | none, some signal => if !Signal.harmless.contains n then throw (.ended (.signalled signal))
  | none, none => pure ()

def receiveAll : Act Unit := do
  let s ← get
  let (ns, w) := s.world.takeSignals s.process
  if !ns.isEmpty then
    set { s with world := w }
    ns.forM receive

def runTraps (inner : Inner) : Act Unit := do
  let s ← get
  if !s.noticed.isEmpty && s.leaving = .none then
    let status := s.untrapped.getD s.status
    let before := s.untrapped
    set { s with noticed := [], untrapped := some status }
    for n in s.noticed.mergeSort do
      if let some action := (← get).traps.lookup n then
        inner.script false false action
        if (← get).leaving ≠ .function true then Act.setStatus status
    modify ({ · with untrapped := before })

end Signals

section Jobs

def job? (process : Nat) : Act (Option Job) :=
  return (← get).jobs.find? (·.process = process)

def setJob (j : Job) : Act Unit :=
  modify fun s ↦ { s with jobs := s.jobs.map fun k ↦ if k.process = j.process then j else k }

def deadly? (signals : List Nat) : Option Signal :=
  (signals.filter (!Signal.harmless.contains ·)).findSome? Signal.ofNumber?

def finishJob (j : Job) : Act Termination := do
  match j.outcome, deadly? j.signals with
  | some t, _ => return t
  | none, some signal =>
    setJob { j with outcome := some (.signalled signal) }
    return .signalled signal
  | none, none =>
    let s ← get
    let (t, w) := j.run s.world
    set { s with world := { w with files := { w.files with here := s.world.files.here } } }
    setJob { j with outcome := some t }
    return t

def finishJobs : Act Unit := do
  for j in (← get).jobs.reverse do
    let _ ← finishJob j

end Jobs

def finish (inner : Inner) (result : Except Stop Unit) : StateM State Termination := do
  let leave (r : Except Stop Unit) : StateM State (Except Termination Unit) := do
    match r with
    | .error (.ended t) => return .error t
    | .error (.exit true) =>
      modify fun s ↦ { s with status := s.untrapped.getD s.status, untrapped := none }
      return .ok ()
    | _ =>
      modify ({ · with untrapped := none })
      return .ok ()
  match ← leave result with
  | .error t => return t
  | .ok () =>
    let s ← get
    let r ←
      match s.traps.lookup 0 with
      | some action =>
        set { s with
          traps := s.traps.filter (·.1 ≠ 0), leaving := .none, untrapped := some s.status }
        match ← (inner.script false false action).run with
        | .ok () =>
          modify fun t ↦ { t with status := s.status, untrapped := none }
          pure (.ok ())
        | r => leave r
      | none => pure (.ok ())
    match r with
    | .error t => return t
    | .ok () =>
      let _ ← finishJobs.run
      return .exited (.ofNat (← get).status)

/-- The state of a copy of the shell, in a process of its own. What was to be done on signals is
forgotten, and ignored ones stay ignored. -/
def State.copy (s : State) (process : Nat) : State :=
  { s with
    process := process
    traps := s.traps.filter (·.2.isEmpty)
    noticed := []
    untrapped := none
    jobs := [] }

def runCopy (inner : Inner) (s : State) (process : Nat) (act : Act Unit) (w : World) :
    Termination × World :=
  let (t, s) := (do
    let r ← (do act; receiveAll : Act Unit).run
    finish inner r : StateM State Termination).run { s.copy process with world := w }
  (t, s.world)

def newProcess : Act Nat := modifyGet fun s ↦
  let n := s.world.lastProcess + 1
  (n, { s with world := { s.world with lastProcess := n } })

def reportEnd (t : Termination) : Act Unit :=
  match t with
  | .signalled n =>
    if n.val = Signal.interrupt || n.val = Signal.brokenPipe then pure ()
    else Act.say 2 (Signal.meaning n.val ++ "\n")
  | .exited _ => pure ()

def fork (inner : Inner) (act : Act Unit) : Act Termination := do
  let process ← newProcess
  let s ← get
  let (t, w) := runCopy inner s process act s.world
  set { s with world := { w with files := { w.files with here := s.world.files.here } } }
  receiveAll
  reportEnd t
  return t

def roomForJob (jobs : List Job) : List Job × Nat :=
  let jobs :=
    match jobs.reverse.find? (·.isWaited) with
    | some old => jobs.filter (·.process ≠ old.process)
    | none => jobs
  let isFree (n : Nat) : Bool := jobs.all (·.number ≠ n)
  (jobs, ((List.range (jobs.length + 1)).map (· + 1)).find? isFree |>.getD (jobs.length + 1))

/-- Runs something in a copy of the shell, whenever it comes to it. -/
def spawn (inner : Inner) (act : Act Unit) : Act Unit := do
  let process ← newProcess
  let s ← get
  let here := s.world.files.here
  let run (w : World) : Termination × World :=
    runCopy inner s process act { w with files := { w.files with here := here } }
  let (jobs, number) := roomForJob s.jobs
  set { s with
    jobs := ⟨number, process, [], run, none, false⟩ :: jobs, lastJob := some process }

def outputOf (inner : Inner) (c : Command) : Act String := do
  if c matches .nothing then return ""
  let s ← get
  let (pipe, _, inlet, w) := s.world.addPipe
  set { s with world := w }
  let t ← fork inner do
    modify fun s ↦ { s with channels := s.channels.set 1 inlet }
    inner.evaluate ⟨false, true⟩ c
  modify ({ · with outputStatus := Act.statusOf t })
  let (bytes, w) := (← get).world.drain pipe
  modify ({ · with world := w })
  let cs := (Text.Octets.read bytes).toList.filter (· ≠ '\x00')
  return .ofList (cs.reverse.dropWhile (· = '\n')).reverse

end BootMedia.Shell
