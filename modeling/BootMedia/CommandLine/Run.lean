import BootMedia.CommandLine.Help
import BootMedia.FileSystem.Tree
import BootMedia.Plan.Session
import BootMedia.Preflight.Checks
import BootMedia.Process.Termination

namespace BootMedia.CommandLine

structure Outcome where
  status : UInt8
  session : Session

def usageStatus : Int := 2

def Outcome.of (code : Int) (s : Session) : Outcome := ⟨statusByte code, s⟩

def stop (styled : Bool) (s : Session) : Stop → Outcome
  | .help => .of 0 (s.print (helpText.render styled))
  | .version => .of 0 (s.print versionText)
  | .usage e => .of usageStatus (s.printError (e.text.render styled))

/-- Ends with a failure. A name that is not supported is answered on the output, and every other
failure reported as an error. -/
def fail (s : Session) (f : Failure) : Outcome :=
  match f with
  | .unsupported _ _ _ => .of f.exitCode (s.print (f.message ++ "\n"))
  | _ => .of f.exitCode (s.printError ("Error: " ++ f.chain ++ "\n"))

def unprepared (s : Session) (r : Report) : Outcome :=
  .of 1 ((s.print r.summary).printError "Error: preflight checks failed\n")

def carryOut (runner : Runner) (s : Session) (r : Request) (l : Layout) : Outcome :=
  match (execute r l).perform runner s with
  | (.ok (), s) => .of 0 s
  | (.error f, s) => fail s f

def run (runner : Runner) (account : Path) (e : Environment) (fs : FileSystem)
    (arguments : List String) : Outcome :=
  let s := Session.start fs
  match parse arguments with
  | .error reason => stop (isStyled e) s reason
  | .ok a =>
    let l := Layout.ofEnvironment e (fs.pathOf fs.here)
    match Request.ofNames a.action a.architecture a.configuration a.flags l with
    | .error f => fail s f
    | .ok r =>
      let report := Preflight.report fs account e none r.target r.action l
      if report.isOk then carryOut runner s r l else unprepared s report

end BootMedia.CommandLine
