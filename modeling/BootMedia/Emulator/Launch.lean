import BootMedia.Plan.Basic
import BootMedia.Target.Basic

namespace BootMedia

def launchInvocation (t : Target) : Invocation :=
  (Invocation.ofProgram t.emulator).withArguments t.emulatorArguments

def launch (t : Target) : Plan Unit := do
  let i := launchInvocation t
  .line ("Running " ++ package ++ " in QEMU...")
  .line ("  Emulator: " ++ t.emulator)
  .line ("  Command:  " ++ i.display)
  let code ← .exitCode i
  if code = 0 then return else .fail (.emulator code)

end BootMedia
