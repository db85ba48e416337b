import BootMedia.Path
import BootMedia.SystemError

namespace BootMedia

inductive Failure where
  | unsupported (kind value : String) (supported : List String)
  | toolchain (code : Int)
  | missingArtifact (path : Path)
  | emulator (code : Int)
  | missingFirmware (path : Path)
  | spawn (program : String) (cause : SystemError)
  | file (path : Path) (cause : SystemError)
deriving DecidableEq, Repr

namespace Failure

def message : Failure → String
  | unsupported kind value supported =>
    "Unknown " ++ kind ++ " '" ++ value ++ "'\nSupported " ++ kind ++ "s: " ++
      ", ".intercalate supported
  | toolchain code => "toolchain failed with exit code " ++ toString code
  | missingArtifact path => "build artifact not found at " ++ path.text
  | emulator code => "emulator exited with code " ++ toString code
  | missingFirmware path => "firmware image not found at " ++ path.text
  | spawn program _ => "failed to run " ++ program ++ ". Is it installed?"
  | file path _ => "I/O error at " ++ path.text

def cause? : Failure → Option SystemError
  | spawn _ cause | file _ cause => some cause
  | _ => none

def chain (f : Failure) : String :=
  match f.cause? with
  | some cause => f.message ++ ": " ++ cause.message
  | none => f.message

/-- The exit code that stands for the failure: a process's own code is passed on, and every other
failure counts as one. -/
def exitCode : Failure → Int
  | toolchain code | emulator code => code
  | _ => 1

end Failure

end BootMedia
