import BootMedia.Emulator.Drive
import BootMedia.Layout
import BootMedia.Target.Architecture

namespace BootMedia

def machineMemory : String := "256M"

def Firmware.arguments (directory : Path) : Firmware → List String
  | flash code vars =>
    ["-drive", Drive.write (Drive.code (directory / code)),
     "-drive", Drive.write (Drive.vars (directory / vars))]
  | bios image => ["-bios", (directory / image).text]

/-- No default devices, the boot media as a drive, and the guest's console on the first serial
line. -/
def sharedArguments (media : Path) : List String :=
  ["-nodefaults", "-m", machineMemory, "-drive", Drive.write (Drive.media media),
   "-serial", "stdio", "-monitor", "vc:1024x768"]

def emulatorArguments (a : Architecture) (l : Layout) : List String :=
  sharedArguments l.mediaDirectory ++ a.machineFlags ++
    a.firmware.arguments l.firmwareDirectory ++ a.exitFlags

end BootMedia
