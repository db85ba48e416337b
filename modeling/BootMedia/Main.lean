import BootMedia.CommandLine.Run
import BootMedia.Host.Machine
import BootMedia.Host.Start

namespace BootMedia.CommandLine

def variableNames : List String :=
  [Layout.rootVariable, searchPathVariable, homeVariable, "PWD", flagsVariable,
   encodedFlagsVariable, buildFlagsVariable, targetPathVariable, forceStyleVariable,
   noStyleVariable]

def readEnvironment : IO Environment := do
  let values ← variableNames.mapM fun name ↦ return (name, ← IO.getEnv name)
  return Environment.empty.applyAll values

partial def readLines (input : IO.FS.Stream) : IO (List String) := do
  let line ← input.getLine
  if line.isEmpty then return []
  let text := if line.endsWith "\n" then (line.dropEnd 1).toString else line
  return text :: (← readLines input)

/-- Runs on the machine whose files are described on standard input, prints what the run printed and
answers its status. -/
def runDescribed (arguments : List String) : IO UInt32 := do
  let e ← readEnvironment
  let files := Host.Described.ofLines (← readLines (← IO.getStdin))
  match Host.machine ⟨(e.get? "PWD").getD "/"⟩ 0 with
  | .error cause =>
    IO.eprintln ("Error: Failed to read current directory: " ++ cause.message)
    return 1
  | .ok fs =>
    let runner := Host.runner (Host.start Host.usual e)
    let outcome := run runner Host.accountHome e (Host.addDescribed fs files) arguments
    IO.print outcome.session.stdout
    IO.eprint outcome.session.stderr
    return outcome.status.toUInt32

end BootMedia.CommandLine

def main (arguments : List String) : IO UInt32 := BootMedia.CommandLine.runDescribed arguments
