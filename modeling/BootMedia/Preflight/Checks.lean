import BootMedia.Action
import BootMedia.Preflight.Report
import BootMedia.Preflight.ToolSearch
import BootMedia.Target.Basic
import BootMedia.Toolchain

namespace BootMedia

structure Tool where
  program : String
  purpose : String
  installation : String
deriving DecidableEq, Repr

namespace Preflight

def tool (t : Target) : Action → Tool
  | .build =>
    ⟨toolchain, "Build the iron package", "Install a Rust toolchain: https://rustup.rs"⟩
  | .run =>
    ⟨t.emulator, "Emulate the target machine",
      "Install QEMU: sudo dnf install qemu-system (or your distro's qemu-system package)"⟩

def searchPath? (given : Option String) (e : Environment) : Option String :=
  given <|> e.get? searchPathVariable

/-- The file that the lookup of a program comes to. Without a search path there is none. -/
def found? (fs : FileSystem) (account : Path) (e : Environment) (given : Option String)
    (program : String) : Option Path :=
  (searchPath? given e).bind fun searchPath ↦
    ToolSearch.find? fs (ToolSearch.home account e) searchPath program

def toolCheck (fs : FileSystem) (account : Path) (e : Environment) (given : Option String)
    (t : Tool) : Check :=
  match found? fs account e given t.program with
  | some path =>
    .pass (t.program ++ " tool") ("Found at " ++ path.text ++ " (" ++ t.purpose ++ ")")
  | none =>
    .fail (t.program ++ " tool") ("Not found (needed for: " ++ t.purpose ++ ")") t.installation

def firmwareCheck (fs : FileSystem) (t : Target) (l : Layout) (image : Path) : Check :=
  if fs.isFile image then .pass (image.fileName ++ " firmware") ("Found at " ++ image.text)
  else
    .fail (image.fileName ++ " firmware") ("Not found at " ++ image.text)
      ("Copy the " ++ t.architecture.name ++ " firmware image into " ++ l.firmwareDirectory.text)

def firmwareChecks (fs : FileSystem) (t : Target) (l : Layout) : Action → List Check
  | .build => []
  | .run => (t.firmwareImages l).map (firmwareCheck fs t l)

def report (fs : FileSystem) (account : Path) (e : Environment) (given : Option String)
    (t : Target) (action : Action) (l : Layout) : Report :=
  ⟨toolCheck fs account e given (tool t action) :: firmwareChecks fs t l action⟩

end Preflight

end BootMedia
