import BootMedia.Shell.Invocation

namespace BootMedia.Shell

namespace Act

def andFinally {α : Type} (act : Act α) (after : Act Unit) : Act α := do
  let result ← tryCatch act fun stop ↦ do
    after
    throw stop
  after
  return result

def isLeaving : Act Bool := return (← get).leaving ≠ .none

def hasNoTraps : Act Bool := return (← get).traps.all (·.2.isEmpty)

def setLine (line : Nat) : Act Unit := modify ({ · with line := line })

def status : Act Nat := return (← get).status

def checkFailure (m : Manner) : Act Unit := do
  let s ← get
  if s.options.exitsOnFailure && !m.isTested && s.status ≠ 0 then throw (.exit false)

end Act

namespace Evaluation

variable (inner : Inner)

section Simple

def traceMark : Act String := do
  let s ← get
  let text := (s.bindings.value? "PS4").getD ""
  let reader := Reader.start text s.aliases s.nextDocument
  match (((Parser.nested Parser.depthLimit).zone .document).run reader).1 with
  | .error _ => return text
  | .ok word =>
    modify fun s ↦ { s with options := s.options.switch "xtrace" false }
    let mark ← expandSingle inner .document word
    modify fun s ↦ { s with options := s.options.switch "xtrace" true }
    return mark

def trace (before : Channels) (words : List String) : Act Unit := do
  if (← get).options.shows then
    let line := (← traceMark inner) ++ " ".intercalate words ++ "\n"
    let channels := (← get).channels
    modify ({ · with channels := before })
    Act.say 2 line
    modify ({ · with channels := channels })

def assignWord (isLocal isExported : Bool) (word : Word) : Act String := do
  let text ← expandSingle inner .assignment word
  if isLocal then Local.declare true text
  else if let some (name, value) := assignment? text then
    Act.assign name value
    if isExported then
      modify fun s ↦
        { s with bindings := s.bindings.modify name ({ · with isExported := true }) }
  return text

def runBuiltin (m : Manner) (b : Builtin) (isSpecial : Bool) (words : List String) :
    Act Unit := do
  let speaker := (← get).speaker
  let run : Act Unit := do
    modify ({ · with speaker := words.head? })
    let r ← b.run inner m words.tail
    Act.setStatus r.status
    if !r.text.isEmpty then
      if let .error _ ← Act.tryWrite 1 r.text then
        Act.complain (words.headD "" ++ ": I/O error")
        Act.setStatus (r.status ||| 1)
  let back : Act Unit := modify ({ · with speaker := speaker })
  tryCatch (Act.andFinally run back) fun
    | .error => if isSpecial then throw .error else pure ()
    | stop => throw stop

def runFunction (m : Manner) (f : Function) (words : List String) : Act Unit := do
  let before ← get
  modify ({ · with arguments := words.tail, scan := .start, loops := 0 })
  Act.andFinally (inner.evaluate { m with isLast := false } f.body) do
    modify fun s ↦
      { s with
        arguments := before.arguments
        scan := before.scan
        loops := before.loops
        leaving := if s.leaving matches .function _ then .none else s.leaving }

def callProgram (m : Manner) (path : Option String) (words : List String) : Act Unit := do
  let name := words.headD ""
  match ← findProgram (path.getD (← searchPath)) name with
  | .error e =>
    let _ ← complainOf name e
    Act.setStatus unknownCommand
  | .ok paths =>
    if m.isLast && (← Act.hasNoTraps) then becomeProgram inner words paths
    else Act.setStatus (← runChild inner words paths)

def isReplacement (c : Call) : Bool :=
  match c.callee with
  | .builtin b => b.name = "exec"
  | _ => false

def runCall (m : Manner) (c : Call) : Act Unit :=
  match c.callee with
  | .nothing => do Act.setStatus (← get).outputStatus
  | .builtin b => runBuiltin inner m b c.isSpecial c.words
  | .function f => runFunction inner m f c.words
  | .program path => callProgram inner m path c.words

/-- A simple command: its words are expanded first, then its channels are redirected and its
assignments made. -/
def simple (m : Manner) (line : Nat) (assignments words : List Word) (rs : List Redirection) :
    Act Unit := do
  Act.setLine line
  modify ({ · with outputStatus := 0 })
  let c ← Call.ofWords inner words
  let depth := (← get).locals.length
  if c.isLocal then Local.enter
  let ts ← rs.mapM (Target.ofRedirection inner)
  let before := (← get).channels
  let back : Act Unit := if isReplacement c then pure () else Target.restore ts before
  if ← Target.performAll inner ts then
    let run : Act Unit := do
      let exports := isReplacement c && 1 < c.words.length
      let assigned ← assignments.mapM (assignWord inner c.isLocal exports)
      trace inner before (assigned ++ c.shown)
      runCall inner m c
    Act.andFinally run back
    Local.leave depth
  else
    Target.restore ts before
    if c.isSpecial then throw .error
    Local.leave depth

end Simple

section Copies

def subshell (m : Manner) (line : Nat) (c : Command) (rs : List Redirection) : Act Unit := do
  Act.setLine line
  let ts ← rs.mapM (Target.ofRedirection inner)
  let act : Act Unit := do
    ts.forM (Target.perform inner)
    inner.evaluate { m with isLast := true } c
  if m.isLast && (← Act.hasNoTraps) then
    act
    throw (.exit false)
  else Act.setStatus (Act.statusOf (← fork inner act))

def foregroundSignals : List Nat := [2, 3]

/-- Runs a command in the background. It has nothing to read, unless it is redirected. -/
def background (line : Nat) (c : Command) (rs : List Redirection) : Act Unit := do
  Act.setLine line
  let ts ← rs.mapM (Target.ofRedirection inner)
  spawn inner do
    modify fun s ↦ { s with ignored := s.ignored ++ foregroundSignals }
    Target.openFile 0 .input false "/dev/null"
    ts.forM (Target.perform inner)
    inner.evaluate ⟨false, true⟩ c
  Act.setStatus 0

/-- Looks for the program of a command, if it has one that stands there plainly, and remembers
it. -/
def lookAhead (c : Command) : Act Unit := do
  match c with
  | .simple _ _ ([.text name] :: _) _ =>
    if (Builtin.find? name).isNone && (← get).functions.all (·.1 != name) then
      let _ ← findProgram (← searchPath) name
  | _ => pure ()

def pipeline (m : Manner) : Option StreamId → List Command → Act Unit
  | _, [] => pure ()
  | source, c :: cs => do
    lookAhead c
    let outer := (← get).channels
    let entered := source.elim outer (outer.set 0 ·)
    if cs.isEmpty then
      let t ← fork inner do
        modify ({ · with channels := entered })
        inner.evaluate { m with isLast := true } c
      Act.setStatus (Act.statusOf t)
    else
      let (_, outlet, inlet, w) := (← get).world.addPipe
      modify ({ · with world := w })
      let _ ← fork inner do
        modify ({ · with channels := entered.set 1 inlet })
        inner.evaluate { m with isLast := true } c
      pipeline m (some outlet) cs

end Copies

section Loops

inductive Turn where
  | next
  | stop

def turn : Act Turn := do
  let s ← get
  match s.leaving with
  | .none => return .next
  | .function _ => return .stop
  | .loops count goesOn =>
    if count ≤ 1 then
      set { s with leaving := .none }
      return if goesOn then .next else .stop
    else
      set { s with leaving := .loops (count - 1) goesOn }
      return .stop

def turnLimit : Nat := 1 <<< 62

def turns (isUntil : Bool) (m : Manner) (test body : Command) : Nat → Nat → Act Nat
  | 0, status => return status
  | limit + 1, status => do
    inner.evaluate .tested test
    let holds := ((← Act.status) == 0) != isUntil
    let leaving := (← get).leaving
    if leaving = .none then
      if holds then
        inner.evaluate m.andThenMore body
        let status ← Act.status
        match ← turn with
        | .next => turns isUntil m test body limit status
        | .stop => return status
      else return status
    else
      let status ← if leaving = .function true then Act.status else pure status
      match ← turn with
      | .next => turns isUntil m test body limit status
      | .stop => return status

def inLoop (act : Act Nat) : Act Unit := do
  modify fun s ↦ { s with loops := s.loops + 1 }
  let status ← act
  modify fun s ↦ { s with loops := s.loops - 1, status := status }

def eachTurn (m : Manner) (name : String) (body : Command) : Nat → List String → Act Nat
  | status, [] => return status
  | _, t :: ts => do
    Act.assign name t
    inner.evaluate m.andThenMore body
    let status ← Act.status
    match ← turn with
    | .next => eachTurn m name body status ts
    | .stop => return status

end Loops

section Branches

def branch? (text : String) : List (List Word × Command) → Act (Option Command)
  | [] => return none
  | (ps, c) :: bs => do
    for p in ps do
      if (← expandPattern inner p).isMatch text.toList then return some c
    branch? text bs

end Branches

def sequence (m : Manner) : List Command → Act Unit
  | [] => pure ()
  | [c] => inner.evaluate m c
  | c :: cs => do
    inner.evaluate m.andThenMore c
    if !(← Act.isLeaving) then sequence m cs

def body (m : Manner) : Command → Act Unit
  | .nothing => pure ()
  | .simple line assignments words rs => do
    simple inner m line assignments words rs
    Act.checkFailure m
  | .pipeline cs => do
    pipeline inner m none cs
    Act.checkFailure m
  | .subshell line c rs => do
    subshell inner m line c rs
    Act.checkFailure m
  | .background line c rs => do
    background inner line c rs
    Act.checkFailure m
  | .negation c => do
    inner.evaluate .tested c
    if !(← Act.isLeaving) then Act.setStatus (if (← Act.status) = 0 then 1 else 0)
  | .both a b => do
    inner.evaluate .tested a
    if (← Act.status) = 0 && !(← Act.isLeaving) then inner.evaluate m b
  | .either a b => do
    inner.evaluate .tested a
    if (← Act.status) ≠ 0 && !(← Act.isLeaving) then inner.evaluate m b
  | .sequence cs => sequence inner m cs
  | .redirected line c rs => do
    Act.setLine line
    withRedirections inner rs (inner.evaluate m.andThenMore c) (Act.checkFailure m)
  | .conditional test whenTrue whenFalse => do
    inner.evaluate .tested test
    if !(← Act.isLeaving) then
      if (← Act.status) = 0 then inner.evaluate m whenTrue
      else if whenFalse matches .nothing then Act.setStatus 0
      else inner.evaluate m whenFalse
  | .loop isUntil test body => inLoop (turns inner isUntil m test body turnLimit 0)
  | .each line name words body => do
    Act.setLine line
    let texts ← expandWords inner words
    inLoop (eachTurn inner m name body 0 texts)
  | .choice line subject branches => do
    Act.setLine line
    let text ← expandSingle inner .single subject
    match ← branch? inner text branches with
    | none | some .nothing => Act.setStatus 0
    | some c => inner.evaluate m c
  | .definition line name body => do
    modify fun s ↦
      { s with functions := (name, ⟨line, body⟩) :: s.functions.filter (·.1 != name) }
    Act.setStatus 0

def command (m : Manner) (c : Command) : Act Unit := do
  if !(← get).options.isIdle then
    if !(c matches .nothing) then
      receiveAll
      runTraps inner
      body inner m c
    receiveAll
    runTraps inner

section Scripts

def hasEnded (r : Reader) : Bool := r.isPutBack && r.token matches .finish

def taken (before : List Char) (r : Reader) : String :=
  let rest := (r.passages.getLast?.map (·.rest)).getD []
  let lines := before.take (before.length - rest.length)
  if lines.isEmpty || lines.getLast? = some '\n' then .ofList lines
  else
    let line := rest.takeWhile (· ≠ '\n')
    .ofList (lines ++ rest.take (line.length + 1))

/-- Runs the lines of a script one after the other. `isFile` says that they may be shown as they
are read. Answers the status of the last one, which so far is `status`. -/
def lines (isFile : Bool) (m : Manner) : Nat → Nat → Reader → Act Nat
  | 0, _, _ => Act.fail "Script too long"
  | limit + 1, status, r => do
    let s ← get
    let before := (r.passages.getLast?.map (·.rest)).getD []
    let (next, r) :=
      { r with aliases := s.aliases, nextDocument := s.nextDocument, documents := [] }.nextLine
    if isFile && s.options.echoes then Act.say 2 (taken before r)
    modify fun s ↦
      { s with documents := r.documents ++ s.documents, nextDocument := r.nextDocument }
    match next with
    | .finish => return status
    | .broken trouble =>
      Act.setLine r.line
      Act.fail ("Syntax error: " ++ trouble)
    | .commands c =>
      inner.evaluate { m with isLast := m.isLast && hasEnded r } c
      let status ← if c matches .nothing then pure status else Act.status
      if ← Act.isLeaving then return status else lines isFile m limit status r

def script (isFile : Bool) (m : Manner) (text : String) : Act Unit := do
  let s ← get
  let reader := Reader.start text s.aliases s.nextDocument
  Act.setStatus (← lines inner isFile m Reading.stepLimit 0 reader)

end Scripts

end Evaluation

/-- The number of commands that can hold each other, and of functions that can call each other. -/
def depthLimit : Nat := 4000

def overflow : Stop := .ended (.signalled ⟨11, by decide⟩)

/-- The shell for commands that hold each other up to a depth. -/
def Inner.ofDepth (launch : Launcher) : Nat → Inner
  | 0 => ⟨fun _ _ ↦ throw overflow, fun _ _ _ ↦ throw overflow, launch⟩
  | depth + 1 =>
    { evaluate := fun m c ↦ Evaluation.command (ofDepth launch depth) m c
      script := fun isFile isTested text ↦
        Evaluation.script (ofDepth launch depth) isFile ⟨isTested, false⟩ text
      launch := launch }

def Inner.full (launch : Launcher) : Inner := .ofDepth launch depthLimit

end BootMedia.Shell
