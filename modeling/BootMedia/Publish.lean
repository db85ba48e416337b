import BootMedia.FileSystem.Tree
import BootMedia.Plan.Basic
import BootMedia.Target.Basic

namespace BootMedia

def startupScript (bootFile : String) : String := "\\EFI\\BOOT\\" ++ bootFile

def Plan.makeDirectories : List Path → Plan (Except Fault Unit)
  | [] => pure (.ok ())
  | p :: above => do
    match ← attempt (.ensureDirectory p) with
    | .ok () => return .ok ()
    | .error fault =>
      if fault.cause = .notFound then
        match ← makeDirectories above with
        | .ok () => attempt (.ensureDirectory p)
        | .error fault => return .error fault
      else return .error fault

def Fault.failure (f : Fault) : Failure := .file f.path f.cause

def publishedFile (t : Target) (l : Layout) : Path := l.bootDirectory / t.bootFile

/-- Copies `source` with its permission bits and its time of change, and writes the startup script.
The answer is the path of the copy. -/
def publish (source : Path) (t : Target) (l : Layout) : Plan Path := do
  .require (.requireFile source) fun f ↦ .missingArtifact f.path
  match ← Plan.makeDirectories l.bootDirectory.climb with
  | .ok () => pure ()
  | .error fault => .fail (.file l.bootDirectory fault.cause)
  .require (.copy source (publishedFile t l)) Fault.failure
  .require (.copyTime source (publishedFile t l)) Fault.failure
  .require (.write l.startupScript (startupScript t.bootFile)) Fault.failure
  .line ("  Published: " ++ (publishedFile t l).text)
  .line ("  Startup:   " ++ l.startupScript.text)
  return publishedFile t l

end BootMedia
