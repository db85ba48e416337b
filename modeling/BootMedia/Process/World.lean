import BootMedia.FileSystem.Call
import BootMedia.Text.Octets

namespace BootMedia

def pathOf (text : String) : Path := ⟨Text.Octets.toText text⟩

structure Access where
  reads : Bool
  writes : Bool
  appends : Bool
deriving DecidableEq, Repr

inductive Stream where
  | file (i : Inode) (offset : Nat) (access : Access)
  | outlet (pipe : Nat) (offset : Nat)
  | inlet (pipe : Nat)
deriving DecidableEq, Repr

abbrev StreamId := Nat

abbrev Channels := List (Nat × StreamId)

namespace Channels

def set (c : Channels) (n : Nat) (s : StreamId) : Channels := (n, s) :: c.filter (·.1 != n)

def close (c : Channels) (n : Nat) : Channels := c.filter (·.1 != n)

def restore (c before : Channels) (n : Nat) : Channels :=
  match before.lookup n with
  | some s => c.set n s
  | none => c.close n

end Channels

/-- What the processes of a machine share. A process knows a stream by the number of a channel, and
all texts that pass through a stream are octet texts. -/
structure World where
  files : FileSystem
  streams : Array Stream
  /-- All that was ever written to each pipe. -/
  pipes : Array ByteArray
  lastProcess : Nat
  /-- The numbers of processes, each with that of a signal sent to it, the latest first. -/
  signals : List (Nat × Nat)

namespace World

def outputPipe : Nat := 0

def errorPipe : Nat := 1

def ownChannels : Channels := [(0, 0), (1, 1), (2, 2)]

/-- The world of a command that is the first one: a pipe for its output, one for its errors, and one
to read from in which there is nothing. -/
def start (files : FileSystem) : World where
  files := files
  streams := #[.outlet 2 0, .inlet outputPipe, .inlet errorPipe]
  pipes := #[.empty, .empty, .empty]
  lastProcess := 1
  signals := []

def written (w : World) (pipe : Nat) : ByteArray := w.pipes[pipe]?.getD .empty

def addStream (w : World) (s : Stream) : StreamId × World :=
  (w.streams.size, { w with streams := w.streams.push s })

def addPipe (w : World) : Nat × StreamId × StreamId × World :=
  let pipe := w.pipes.size
  let (outlet, w) := { w with pipes := w.pipes.push .empty }.addStream (.outlet pipe 0)
  let (inlet, w) := w.addStream (.inlet pipe)
  (pipe, outlet, inlet, w)

def readable (w : World) (s : StreamId) : Except SystemError (ByteArray × Nat) :=
  match w.streams[s]? with
  | some (.file i offset access) =>
    if !access.reads then .error .badChannel
    else
      match w.files.node? i with
      | some (.file f) => .ok (f.bytes, offset)
      | some (.directory _ _) => .error .isDirectory
      | _ => .ok (.empty, 0)
  | some (.outlet pipe offset) => .ok (w.written pipe, offset)
  | some (.inlet _) | none => .error .badChannel

def Stream.advance (n : Nat) : Stream → Stream
  | .file i offset access => .file i (offset + n) access
  | .outlet pipe offset => .outlet pipe (offset + n)
  | .inlet pipe => .inlet pipe

def advance (w : World) (s : StreamId) (n : Nat) : World :=
  { w with streams := w.streams.modify s (Stream.advance n) }

def readAll (w : World) (s : StreamId) : Except SystemError (String × World) := do
  let (bytes, i) ← w.readable s
  return (Text.Octets.read (bytes.extract i bytes.size), w.advance s (bytes.size - i))

def write (w : World) (s : StreamId) (text : String) : Except SystemError World := do
  let bytes := Text.Octets.write text
  match w.streams[s]? with
  | some (.file i offset access) =>
    if !access.writes then .error .badChannel
    else if bytes.isEmpty then .ok w
    else if access.appends then return { w with files := ← w.files.append i bytes }
    else return { w with files := ← w.files.writeAt i offset bytes }.advance s bytes.size
  | some (.inlet pipe) => .ok { w with pipes := w.pipes.modify pipe (· ++ bytes) }
  | some (.outlet _ _) | none => .error .badChannel

def drain (w : World) (pipe : Nat) : ByteArray × World :=
  (w.written pipe, { w with pipes := w.pipes.setIfInBounds pipe .empty })

end World

end BootMedia
