import BootMedia.Host.Interpreter
import BootMedia.Process.World

namespace BootMedia.Host

def image (program : String) : ByteArray := ("\x7fELF " ++ program ++ "\n").toUTF8

def imageMark : ByteArray := "\x7fELF ".toUTF8

def program? (bytes : ByteArray) : Option String :=
  let start := imageMark.size
  if (bytes.extract 0 start).data = imageMark.data then
    some (Text.Octets.read (bytes.extract start (bytes.size - 1)))
  else none

def loadLimit : Nat := 6

structure Loaded where
  program : String
  words : List String
deriving DecidableEq, Repr

def openProgram (fs : FileSystem) (p : Path) : Except SystemError RegularFile := do
  let i ← fs.resolve p
  match fs.fileAt? i with
  | some f => if f.isExecutable then .ok f else .error .accessDenied
  | none => .error .accessDenied

/-- What is run when the file `p` is started with the given words, the first of which is the name
that a program goes by. An interpreter without a name is denied, as a directory is. -/
def load (fs : FileSystem) : Nat → String → List String → Except SystemError Loaded
  | 0, p, _ => do
    let _ ← openProgram fs (pathOf p)
    .error .linkLoop
  | limit + 1, p, words => do
    let f ← openProgram fs (pathOf p)
    match program? f.bytes with
    | some name => .ok ⟨name, words⟩
    | none =>
      match Interpreter.ofBytes? f.bytes with
      | some i =>
        if i.path.isEmpty then .error .accessDenied
        else load fs limit i.path (i.path :: i.argument.toList ++ p :: words.tail)
      | none => .error .badExecutable

end BootMedia.Host
