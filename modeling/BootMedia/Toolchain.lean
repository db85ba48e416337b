import BootMedia.Invocation.Hermetic
import BootMedia.Plan.Basic
import BootMedia.Target.Basic

namespace BootMedia

def toolchain : String := "cargo"

def buildInvocation (t : Target) (flags : Flags) (l : Layout) : Invocation :=
  Invocation.ofProgram toolchain
    |>.withArguments t.configuration.mode.arguments
    |>.withArguments ["--target", t.triple]
    |>.withArguments ["--package", package]
    |>.inDirectory l.root
    |>.hermetic flags l

def buildPackage (t : Target) (flags : Flags) (l : Layout) : Plan Unit := do
  let i := buildInvocation t flags l
  .line ("Building " ++ package ++ " (" ++ t.configuration.name ++ ")...")
  .line ("  Target:  " ++ t.triple)
  .line ("  Output:  " ++ t.outputDirectory.text)
  .line ("  Flags:   " ++ flags.display)
  .line ("  Command: " ++ i.display)
  let code ← .exitCode i
  if code = 0 then return else .fail (.toolchain code)

end BootMedia
