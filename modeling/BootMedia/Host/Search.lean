import BootMedia.FileSystem.Walk
import BootMedia.Preflight.ToolSearch
import BootMedia.Process.Startup

namespace BootMedia.Host

def defaultSearchPath : String := "/bin:/usr/bin"

def pathIn (entry program : String) : String :=
  if entry.isEmpty then program else entry ++ "/" ++ program

/-- The paths under which a program is tried for some entries, which have to be shorter than a
limit. One that is not counts as empty, unless it is the last. -/
def pathsIn (limit : Nat) (program : String) : List String → List String
  | [] => []
  | [entry] => if entry.length < limit then [pathIn entry program] else []
  | entry :: entries =>
    pathIn (if entry.length < limit then entry else "") program :: pathsIn limit program entries

def paths (searchPath program : String) : List String :=
  if program.isEmpty || program.toList.contains '/' then [program]
  else
    let limit := min searchPath.length FileSystem.pathLimit + 1
    pathsIn limit program (searchEntries searchPath)

def isOverlong (program : String) : Bool :=
  FileSystem.nameLimit < program.length && !program.toList.contains '/'

/-- The first path that can be started. A path that is not there, or may not be executed, is passed
over; if none is left, a denied one is reported rather than a missing one. -/
def firstStarted {α : Type} (start : String → Except SystemError α) :
    SystemError → List String → Except SystemError α
  | worst, [] => .error worst
  | worst, p :: ps =>
    match start p with
    | .ok a => .ok a
    | .error .accessDenied => firstStarted start .accessDenied ps
    | .error .notFound => firstStarted start (if worst = .accessDenied then worst else .notFound) ps
    | .error .notDirectory =>
      firstStarted start (if worst = .accessDenied then worst else .notDirectory) ps
    | .error e => .error e

def startFound {α : Type} (start : String → Except SystemError α) (searchPath : Option String)
    (program : String) : Except SystemError α :=
  if isOverlong program then .error .nameTooLong
  else firstStarted start .notFound (paths (searchPath.getD defaultSearchPath) program)

def startAt (launch : Launcher) (u : Startup) (w : World) (p : String) :
    Except SystemError (Termination × World) :=
  match launch (pathOf p) u w with
  | .error .badExecutable =>
    launch shellFile { u with words := shellFile.text :: p :: u.words.tail } w
  | result => result

end BootMedia.Host
