import BootMedia.Environment
import BootMedia.Path

namespace BootMedia

structure Layout where
  root : Path
deriving DecidableEq, Repr

namespace Layout

def rootVariable : String := "IRON_WORKSPACE"

def mediaName : String := "build"

def firmwareName : String := "qemu_boot"

def scriptName : String := "startup.nsh"

/-- The layout at the root named in the environment; a root that is not set, or empty, is
`fallback`. -/
def ofEnvironment (e : Environment) (fallback : Path) : Layout :=
  match e.get? rootVariable with
  | some root => if root.isEmpty then ⟨fallback⟩ else ⟨⟨root⟩⟩
  | none => ⟨fallback⟩

def mediaDirectory (l : Layout) : Path := l.root / mediaName

def bootDirectory (l : Layout) : Path := l.mediaDirectory / "EFI" / "BOOT"

def startupScript (l : Layout) : Path := l.mediaDirectory / scriptName

def firmwareDirectory (l : Layout) : Path := l.root / firmwareName

def outputDirectory (l : Layout) (triple subdirectory : String) : Path :=
  l.root / "target" / triple / subdirectory

end Layout

end BootMedia
