import BootMedia.Plan.Basic

namespace BootMedia

structure Ran where
  result : Except Failure Int
  files : FileSystem
  stdout : String
  stderr : String
  elapsed : Nat

/-- Runs programs. It sees the files and leaves them as it likes. -/
abbrev Runner := Invocation → FileSystem → Ran

structure Session where
  files : FileSystem
  stdout : String
  stderr : String
  spawned : List Invocation
  elapsed : Nat

namespace Session

def start (fs : FileSystem) : Session := ⟨fs, "", "", [], 0⟩

def print (s : Session) (text : String) : Session := { s with stdout := s.stdout ++ text }

def printError (s : Session) (text : String) : Session := { s with stderr := s.stderr ++ text }

def run (s : Session) (runner : Runner) (i : Invocation) : Except Failure Int × Session :=
  let ran := runner i s.files
  (ran.result,
   { files := ran.files
     stdout := s.stdout ++ ran.stdout
     stderr := s.stderr ++ ran.stderr
     spawned := s.spawned ++ [i]
     elapsed := ran.elapsed })

def call (s : Session) (c : FileCall) : Except Fault Unit × Session :=
  match c.perform s.files with
  | .ok files => (.ok (), { s with files := files })
  | .error fault => (.error fault, s)

end Session

/-- A time in milliseconds as it is printed: in seconds below a minute, in minutes from there on,
to the nearest tenth. -/
def elapsedText (milliseconds : Nat) : String :=
  let inTenths (unit : Nat) : String :=
    let tenths := (10 * milliseconds + unit / 2) / unit
    toString (tenths / 10) ++ "." ++ toString (tenths % 10)
  if milliseconds < 60000 then inTenths 1000 ++ "s" else inTenths 60000 ++ "m"

namespace Plan

variable {α : Type}

def perform (runner : Runner) : Plan α → Session → Except Failure α × Session
  | done result, s => (result, s)
  | print text next, s => next.perform runner (s.print text)
  | reportTime label next, s =>
    next.perform runner (s.print ("  [" ++ label ++ "] " ++ elapsedText s.elapsed ++ "\n"))
  | run i next, s =>
    let r := s.run runner i
    (next r.1).perform runner r.2
  | call c next, s =>
    let r := s.call c
    (next r.1).perform runner r.2

end Plan

end BootMedia
