import BootMedia.Shell.Expansion

namespace BootMedia.Shell

section Trouble

def creationTrouble : SystemError → String
  | .notFound | .notDirectory => "Directory nonexistent"
  | e => e.text

def openingTrouble : SystemError → String
  | .notFound | .notDirectory => "No such file"
  | e => e.text

def executionTrouble : SystemError → String
  | .notFound | .notDirectory => "not found"
  | e => e.text

end Trouble

inductive Target where
  | file (channel : Nat) (how : Opening) (isForced : Bool) (name : String)
  /-- Without a source the channel is closed. -/
  | duplicate (channel : Nat) (source : Option Nat)
  | document (channel : Nat) (text : Word)

namespace Target

def channel : Target → Nat
  | file n _ _ _ | duplicate n _ | document n _ => n

def source? (text : String) : Option (Option Nat) :=
  if text = "-" then some none
  else if text.length = 1 then (numeral? text).map some
  else none

def ofRedirection (inner : Inner) : Redirection → Act Target
  | .file n how isForced w =>
    return .file n how isForced (← expandSingle inner .single w)
  | .duplicate n w => do
    match source? (← expandSingle inner .single w) with
    | some m => return .duplicate n m
    | none => Act.fail "Syntax error: Bad fd number"
  | .document n number => return .document n (((← get).documents.lookup number).getD [])

def setChannel (n : Nat) (s : StreamId) : Act Unit :=
  modify fun t ↦ { t with channels := t.channels.set n s }

def isKept (how : Opening) (isForced : Bool) (p : Path) : Act Bool := do
  let s ← get
  return s.options.keepsFiles && how = .output && !isForced && s.world.files.isFile p

def openFile (n : Nat) (how : Opening) (isForced : Bool) (name : String) : Act Unit := do
  let s ← get
  let trouble (e : SystemError) : Act Unit :=
    if how = .input then Act.fail ("cannot open " ++ name ++ ": " ++ openingTrouble e)
    else Act.fail ("cannot create " ++ name ++ ": " ++ creationTrouble e)
  if ← isKept how isForced (pathOf name) then trouble .alreadyExists
  else
    let mode := FileSystem.masked s.mask FileSystem.defaultMode
    match s.world.openFile s.channels (pathOf name) mode how with
    | .ok (stream, w) =>
      set { s with world := w }
      setChannel n stream
    | .error e => trouble e

def perform (inner : Inner) : Target → Act Unit
  | .file n how isForced name => openFile n how isForced name
  | .duplicate n none => modify fun s ↦ { s with channels := s.channels.close n }
  | .duplicate n (some m) => do
    match (← get).channels.lookup m with
    | some stream => setChannel n stream
    | none => Act.fail (toString m ++ ": " ++ SystemError.badChannel.text)
  | .document n text => do
    let text ← expandSingle inner .document text
    let (_, outlet, inlet, w) := (← get).world.addPipe
    modify ({ · with world := (w.write inlet text).toOption.getD w })
    setChannel n outlet

def restore (ts : List Target) (before : Channels) : Act Unit :=
  modify fun s ↦
    { s with channels := ts.foldl (fun c t ↦ c.restore before t.channel) s.channels }

def performAll (inner : Inner) (ts : List Target) : Act Bool :=
  tryCatch (do ts.forM (perform inner); return true) fun
    | .error => return false
    | stop => throw stop

end Target

/-- Does something with channels redirected, and afterwards something else if that cannot be done.
Then the channels are what they were. -/
def withRedirections (inner : Inner) (rs : List Redirection) (act otherwise : Act Unit) :
    Act Unit := do
  let ts ← rs.mapM (Target.ofRedirection inner)
  let before := (← get).channels
  if ← Target.performAll inner ts then
    tryCatch act fun stop ↦ do
      Target.restore ts before
      throw stop
    Target.restore ts before
  else
    Target.restore ts before
    otherwise

end BootMedia.Shell
