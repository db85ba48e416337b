import BootMedia.Flags
import BootMedia.Invocation.Basic
import BootMedia.Layout

namespace BootMedia

def flagsVariable : String := "RUSTFLAGS"

/-- The variable with encoded flags, which is read before the others. -/
def encodedFlagsVariable : String := "CARGO_ENCODED_RUSTFLAGS"

def buildFlagsVariable : String := "CARGO_BUILD_RUSTFLAGS"

def targetPathVariable : String := "RUST_TARGET_PATH"

namespace Invocation

def hermetic (i : Invocation) (flags : Flags) (layout : Layout) : Invocation :=
  i.unset buildFlagsVariable
    |>.set flagsVariable ""
    |>.set encodedFlagsVariable flags.encode
    |>.set targetPathVariable layout.root.text

inductive Step where
  | arguments (arguments : List String)
  | set (name value : String)
  | unset (name : String)
  | directory (directory : Path)
  | hermetic (flags : Flags) (layout : Layout)
deriving DecidableEq, Repr

def step (i : Invocation) : Step → Invocation
  | .arguments arguments => i.withArguments arguments
  | .set name value => i.set name value
  | .unset name => i.unset name
  | .directory directory => i.inDirectory directory
  | .hermetic flags layout => i.hermetic flags layout

def ofSteps (program : String) (steps : List Step) : Invocation :=
  steps.foldl step (ofProgram program)

end Invocation

end BootMedia
