import BootMedia.FileSystem.Basic
import BootMedia.SystemError

namespace BootMedia

/-- Where a walk ends: at a node, or at a name that a directory does not have. -/
inductive Place where
  | node (i : Inode)
  | vacant (directory : Inode) (name : String)
deriving DecidableEq, Repr

inductive Purpose where
  | content
  | name
  /-- A regular file, which may be made there: a link at the end is followed, and a slash at the
  end, which asks for a directory, is refused whatever is there. -/
  | output
deriving DecidableEq, Repr

namespace FileSystem

def linkLimit : Nat := 40

def nameLimit : Nat := 255

def pathLimit : Nat := 4095

end FileSystem

/-- Why a path is not walked at all, whatever there is. -/
def Path.refusal? (p : Path) : Option SystemError :=
  if p.text.toList.contains '\x00' then some .nullInPath
  else if p.text.isEmpty then some .notFound
  else if FileSystem.pathLimit < p.text.utf8ByteSize then some .nameTooLong
  else none

namespace FileSystem

def origin (p : Path) (i : Inode) : Inode := if p.isAbsolute then rootInode else i

/-- A walk from a node. `through` continues it behind a link. -/
def walkWith (fs : FileSystem) (purpose : Purpose)
    (through : Inode → List String → Except SystemError Place) :
    Inode → List String → Except SystemError Place
  | i, [] => .ok (.node i)
  | i, name :: rest =>
    match fs.node? i with
    | some (.directory parent entries) =>
      if name = "." ∨ name = "" then fs.walkWith purpose through i rest
      else if name = ".." then fs.walkWith purpose through parent rest
      else if purpose = .output ∧ rest = [""] then .error .isDirectory
      else if nameLimit < name.utf8ByteSize then .error .nameTooLong
      else
        match entries.lookup name with
        | none => if rest.isEmpty then .ok (.vacant i name) else .error .notFound
        | some j =>
          match fs.node? j with
          | some (.link target) =>
            if rest.isEmpty && purpose = .name then .ok (.node j)
            else through (origin target i) (target.steps ++ rest)
          | _ => fs.walkWith purpose through j rest
    | _ => .error .notDirectory

def walk (fs : FileSystem) (purpose : Purpose) :
    Nat → Inode → List String → Except SystemError Place
  | 0 => fs.walkWith purpose fun _ _ ↦ .error .linkLoop
  | n + 1 => fs.walkWith purpose (fs.walk purpose n)

def locateSteps (fs : FileSystem) (purpose : Purpose) (p : Path) (steps : List String) :
    Except SystemError Place :=
  match p.refusal? with
  | some e => .error e
  | none => fs.walk purpose linkLimit (origin p fs.here) steps

def locate (fs : FileSystem) (p : Path) : Except SystemError Place :=
  fs.locateSteps .content p p.steps

def locateName (fs : FileSystem) (p : Path) : Except SystemError Place :=
  fs.locateSteps .name p p.names

def locateOutput (fs : FileSystem) (p : Path) : Except SystemError Place :=
  fs.locateSteps .output p p.steps

def resolve (fs : FileSystem) (p : Path) : Except SystemError Inode :=
  match fs.locate p with
  | .ok (.node i) => .ok i
  | .ok (.vacant _ _) => .error .notFound
  | .error e => .error e

def file? (fs : FileSystem) (p : Path) : Option RegularFile :=
  (fs.resolve p).toOption.bind fs.fileAt?

def read? (fs : FileSystem) (p : Path) : Option ByteArray := (fs.file? p).map (·.bytes)

def isFile (fs : FileSystem) (p : Path) : Bool := (fs.file? p).isSome

def isExecutable (fs : FileSystem) (p : Path) : Bool := (fs.file? p).any (·.isExecutable)

def isDirectory (fs : FileSystem) (p : Path) : Bool := (fs.resolve p).toOption.any fs.isDirectoryAt

def directory (fs : FileSystem) (p : Path) : Except SystemError Inode := do
  let i ← fs.resolve p
  if fs.isDirectoryAt i then .ok i else .error .notDirectory

end FileSystem

end BootMedia
