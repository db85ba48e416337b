import BootMedia.Emulator.Arguments
import BootMedia.Target.Configuration

namespace BootMedia

def package : String := "iron"

def artifactName : String := "iron.efi"

def tripleEnd : String := "-unknown-uefi"

def emulatorLead : String := "qemu-system-"

structure Target where
  architecture : Architecture
  configuration : Configuration
  layout : Layout
deriving DecidableEq, Repr

namespace Target

/-- The target with the given names; an unknown architecture is reported before an unknown
configuration. -/
def ofNames (architecture configuration : String) (layout : Layout) : Except Failure Target := do
  let a ← Choice.parse architecture
  let c ← Choice.parse configuration
  return ⟨a, c, layout⟩

def triple (t : Target) : String := t.architecture.compiled ++ tripleEnd

def outputDirectory (t : Target) : Path :=
  t.layout.outputDirectory t.triple t.configuration.outputSubdirectory

def artifact (t : Target) : Path := t.outputDirectory / artifactName

def emulator (t : Target) : String := emulatorLead ++ t.architecture.emulated

def emulatorArguments (t : Target) : List String :=
  BootMedia.emulatorArguments t.architecture t.layout

def bootFile (t : Target) : String := t.architecture.bootFile

def firmwareImages (t : Target) (l : Layout) : List Path :=
  t.architecture.firmware.files.map (l.firmwareDirectory / ·)

def label (t : Target) : String := t.architecture.name ++ " " ++ t.configuration.name

end Target

end BootMedia
