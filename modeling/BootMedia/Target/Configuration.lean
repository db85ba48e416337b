import BootMedia.Choice

namespace BootMedia

inductive ToolchainMode where
  | test
  | build
  | release
  | profile (name : String)
deriving DecidableEq, Repr

def ToolchainMode.arguments : ToolchainMode → List String
  | test => ["test"]
  | build => ["build"]
  | release => ["build", "--release"]
  | profile name => ["build", "--profile=" ++ name]

inductive Configuration where
  | test
  | debug
  | release
  | profiling
  | optimized
  | debugOptimized
deriving DecidableEq, Repr

namespace Configuration

def name : Configuration → String
  | test => "test"
  | debug => "debug"
  | release => "release"
  | profiling => "profiling"
  | optimized => "optimized"
  | debugOptimized => "debug_optimized"

instance : Choice Configuration where
  kind := "configuration"
  all := [test, debug, release, profiling, optimized, debugOptimized]
  name := name
  complete a := by cases a <;> decide
  name_injective a b := by cases a <;> cases b <;> decide

def outputSubdirectory : Configuration → String
  | test | debug => "debug"
  | release => "release"
  | profiling => "profiling"
  | optimized => "lto-release"
  | debugOptimized => "lto-debug"

def mode : Configuration → ToolchainMode
  | test => .test
  | debug => .build
  | release => .release
  | profiling => .profile "profiling"
  | optimized => .profile "lto-release"
  | debugOptimized => .profile "lto-debug"

end Configuration

end BootMedia
