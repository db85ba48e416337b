import BootMedia.Process.World

namespace BootMedia

inductive Opening where
  | input
  | output
  | addition
  | update
deriving DecidableEq, Repr

namespace Opening

def access : Opening → Access
  | input => ⟨true, false, false⟩
  | output => ⟨false, true, false⟩
  | addition => ⟨false, true, true⟩
  | update => ⟨true, true, false⟩

def node (fs : FileSystem) (p : Path) (mode : Nat) :
    Opening → Except SystemError (Inode × FileSystem)
  | input => do
    let i ← fs.resolve p
    match fs.fileAt? i with
    | some f => if f.isReadable then .ok (i, fs) else .error .accessDenied
    | none => .ok (i, fs)
  | output => fs.openEmpty p mode
  | addition => fs.openOutput p mode
  | update => do
    let (i, fs) ← fs.openOutput p mode
    match fs.fileAt? i with
    | some f => if f.isReadable then .ok (i, fs) else .error .accessDenied
    | none => .ok (i, fs)

end Opening

/-- Opens a file for a process with the given channels. Where the file stands for one of them, this
one is meant. -/
def World.openFile (w : World) (channels : Channels) (p : Path) (mode : Nat) (how : Opening) :
    Except SystemError (StreamId × World) := do
  let (i, files) ← how.node w.files p mode
  match files.node? i with
  | some (.device (.channel n)) =>
    match channels.lookup n with
    | some s => .ok (s, w)
    | none => .error .notFound
  | _ => .ok ({ w with files := files }.addStream (.file i 0 how.access))

end BootMedia
