import BootMedia.FileSystem.Walk

namespace BootMedia

namespace FileSystem

def makeDirectory (fs : FileSystem) (p : Path) : Except SystemError FileSystem :=
  match fs.locateName p with
  | .ok (.node _) => .error .alreadyExists
  | .ok (.vacant d name) => .ok (fs.addNode d name (.directory d []))
  | .error e => .error e

def ensureDirectory (fs : FileSystem) (p : Path) : Except SystemError FileSystem :=
  match fs.makeDirectory p with
  | .ok fs' => .ok fs'
  | .error e => if fs.isDirectory p then .ok fs else .error e

def makeLink (fs : FileSystem) (p target : Path) : Except SystemError FileSystem :=
  match target.refusal? with
  | some e => .error e
  | none =>
    match fs.locateName p with
    | .ok (.node _) => .error .alreadyExists
    | .ok (.vacant d name) =>
      if Path.endsInSlash p.text then .error .notFound else .ok (fs.addNode d name (.link target))
    | .error e => .error e

def updateFile (fs : FileSystem) (i : Inode) (change : RegularFile → RegularFile) : FileSystem :=
  match fs.fileAt? i with
  | some f => fs.setNode i (.file (change f))
  | none => fs

def openInput (fs : FileSystem) (p : Path) : Except SystemError (Inode × RegularFile) := do
  let i ← fs.resolve p
  match fs.node? i with
  | some (.file f) => if f.isReadable then .ok (i, f) else .error .accessDenied
  | some (.device _) => .ok (i, ⟨.empty, 0, 0⟩)
  | _ => .error .isDirectory

/-- The regular file or device of a path, opened to be written. A path at which there is nothing
gets a file with the given permission bits, which may be written whatever they are. -/
def openOutput (fs : FileSystem) (p : Path) (mode : Nat) :
    Except SystemError (Inode × FileSystem) :=
  match fs.locateOutput p with
  | .ok (.node i) =>
    match fs.node? i with
    | some (.file f) => if f.isWritable then .ok (i, fs) else .error .accessDenied
    | some (.device _) => .ok (i, fs)
    | _ => .error .isDirectory
  | .ok (.vacant d name) =>
    .ok (fs.nodes.size, (fs.addNode d name (.file ⟨.empty, mode, fs.clock⟩)).tick)
  | .error e => .error e

def openEmpty (fs : FileSystem) (p : Path) (mode : Nat) :
    Except SystemError (Inode × FileSystem) := do
  let (i, fs) ← fs.openOutput p mode
  return (i, (fs.updateFile i ({ · with bytes := .empty, modified := fs.clock })).tick)

def isFullAt (fs : FileSystem) (i : Inode) : Bool := fs.node? i matches some (.device .full)

def append (fs : FileSystem) (i : Inode) (bytes : ByteArray) : Except SystemError FileSystem :=
  if fs.isFullAt i && bytes.size != 0 then .error .noSpace
  else
    .ok (fs.updateFile i fun f ↦ { f with bytes := f.bytes ++ bytes, modified := fs.clock }).tick

def writeAt (fs : FileSystem) (i : Inode) (offset : Nat) (bytes : ByteArray) :
    Except SystemError FileSystem :=
  match fs.fileAt? i with
  | some f =>
    let gap := ByteArray.mk (Array.replicate (offset - f.bytes.size) 0)
    let behind := f.bytes.extract (offset + bytes.size) f.bytes.size
    let whole := f.bytes.extract 0 offset ++ gap ++ bytes ++ behind
    .ok (fs.setNode i (.file { f with bytes := whole, modified := fs.clock })).tick
  | none => fs.append i bytes

def writeFile (fs : FileSystem) (p : Path) (bytes : ByteArray) : Except SystemError FileSystem := do
  let (i, fs) ← fs.openEmpty p (masked creationMask defaultMode)
  fs.append i bytes

/-- Copies bytes and permission bits. The source is read after the destination has been emptied,
so a file copied onto itself ends empty. -/
def copyFile (fs : FileSystem) (source dest : Path) : Except SystemError FileSystem := do
  let (i, f) ← fs.openInput source
  let (j, fs) ← fs.openEmpty dest (masked creationMask f.mode)
  let fs := fs.updateFile j ({ · with mode := f.mode })
  fs.append j ((fs.fileAt? i).elim .empty (·.bytes))

def setModified (fs : FileSystem) (p : Path) (time : Int) : Except SystemError FileSystem := do
  let i ← fs.resolve p
  match fs.node? i with
  | some (.file f) =>
    if f.isWritable then .ok (fs.updateFile i ({ · with modified := time }))
    else .error .accessDenied
  | some (.device _) => .error .notPermitted
  | _ => .error .isDirectory

def setMode (fs : FileSystem) (p : Path) (mode : Nat) : Except SystemError FileSystem := do
  let i ← fs.resolve p
  match fs.node? i with
  | some (.device _) => .error .notPermitted
  | _ => .ok (fs.updateFile i ({ · with mode := mode }))

end FileSystem

structure Fault where
  path : Path
  cause : SystemError
deriving DecidableEq, Repr

def Fault.on {α : Type} (p : Path) : Except SystemError α → Except Fault α :=
  Except.mapError fun e ↦ ⟨p, e⟩

inductive FileCall where
  /-- Refused unless the path is that of a regular file; changes nothing. -/
  | requireFile (path : Path)
  | ensureDirectory (path : Path)
  | copy (source dest : Path)
  | copyTime (source dest : Path)
  | write (path : Path) (text : String)
deriving DecidableEq, Repr

namespace FileCall

def perform (fs : FileSystem) : FileCall → Except Fault FileSystem
  | requireFile p => if fs.isFile p then .ok fs else .error ⟨p, .notFound⟩
  | ensureDirectory p => Fault.on p (fs.ensureDirectory p)
  | copy source dest => Fault.on dest (fs.copyFile source dest)
  | copyTime source dest =>
    match fs.file? source with
    | some f => Fault.on dest (fs.setModified dest f.modified)
    | none => .error ⟨source, .notFound⟩
  | write p text => Fault.on p (fs.writeFile p text.toUTF8)

end FileCall

end BootMedia
