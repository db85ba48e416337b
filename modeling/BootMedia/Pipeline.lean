import BootMedia.Emulator.Launch
import BootMedia.Publish
import BootMedia.Request
import BootMedia.Toolchain

namespace BootMedia

def programName : String := "iron-build"

def execute (r : Request) (l : Layout) : Plan Unit :=
  match r.action with
  | .build => do
    .line ("=== Building " ++ package ++ " (" ++ r.target.label ++ ") ===\n")
    buildPackage r.target r.flags l
    .reportTime "Toolchain" (pure ())
    .line "\nPublishing to boot media..."
    let _ ← publish r.target.artifact r.target l
    .line ("\nNext: " ++ programName ++ " run " ++ r.target.label)
  | .run => do
    .line ("=== Running " ++ package ++ " (" ++ r.target.label ++ ") ===\n")
    (launch r.target).timed "QEMU"

end BootMedia
