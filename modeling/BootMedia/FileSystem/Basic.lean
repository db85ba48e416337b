import BootMedia.Path

namespace BootMedia

abbrev Inode := Nat

structure RegularFile where
  bytes : ByteArray
  mode : Nat
  modified : Int

namespace RegularFile

def isReadable (f : RegularFile) : Bool := f.mode &&& 0o400 != 0

def isWritable (f : RegularFile) : Bool := f.mode &&& 0o200 != 0

def isExecutable (f : RegularFile) : Bool := f.mode &&& 0o100 != 0

end RegularFile

/-- A file that is no place for bytes, and belongs to the system. -/
inductive Device where
  | null
  | full
  | channel (number : Nat)
deriving DecidableEq, Repr

inductive Node where
  | directory (parent : Inode) (entries : List (String × Inode))
  | file (content : RegularFile)
  | link (target : Path)
  | device (device : Device)

/-- Directories give names to the nodes of a table; a node that has lost its last name stays in it,
out of reach. All files belong to one user, so of their permission bits only the owner's count. -/
structure FileSystem where
  nodes : Array Node
  /-- The working directory: where a path begins that does not begin at the root. -/
  here : Inode
  clock : Int

namespace FileSystem

def rootInode : Inode := 0

/-- The permission bits that a new file does not get, unless its maker has a mask of its own. -/
def creationMask : Nat := 0o022

def defaultMode : Nat := 0o666

def masked (mask mode : Nat) : Nat := mode &&& (0o7777 ^^^ mask)

def empty : FileSystem := ⟨#[.directory rootInode []], rootInode, 0⟩

instance : Inhabited FileSystem := ⟨empty⟩

def node? (fs : FileSystem) (i : Inode) : Option Node := fs.nodes[i]?

def fileAt? (fs : FileSystem) (i : Inode) : Option RegularFile :=
  match fs.node? i with
  | some (.file f) => some f
  | _ => none

def isDirectoryAt (fs : FileSystem) (i : Inode) : Bool :=
  match fs.node? i with
  | some (.directory _ _) => true
  | _ => false

def setNode (fs : FileSystem) (i : Inode) (n : Node) : FileSystem :=
  { fs with nodes := fs.nodes.setIfInBounds i n }

def tick (fs : FileSystem) : FileSystem := { fs with clock := fs.clock + 1 }

def updateEntries (fs : FileSystem) (i : Inode)
    (change : List (String × Inode) → List (String × Inode)) : FileSystem :=
  match fs.node? i with
  | some (.directory parent entries) => fs.setNode i (.directory parent (change entries))
  | _ => fs

def addNode (fs : FileSystem) (directory : Inode) (name : String) (n : Node) : FileSystem :=
  let fs := fs.updateEntries directory (· ++ [(name, fs.nodes.size)])
  { fs with nodes := fs.nodes.push n }

end FileSystem

end BootMedia
