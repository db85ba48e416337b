import BootMedia.FileSystem.Call

namespace BootMedia

namespace Path

def beginnings : List String → List (List String)
  | [] => []
  | name :: before => (name :: before).reverse :: beginnings before

def withNames (p : Path) (names : List String) : Path :=
  ⟨(if p.isAbsolute then "/" else "") ++ "/".intercalate names⟩

/-- The names but for dots, of which only one that a relative path begins with stands for a
directory of its own. -/
def parts (p : Path) : List String :=
  let plain := p.names.filter (· ≠ ".")
  if !p.isAbsolute && p.names.head? == some "." then "." :: plain else plain

def climb (p : Path) : List Path :=
  match beginnings p.parts.reverse with
  | [] => []
  | _ :: above => p :: above.map p.withNames

def parent (p : Path) : Path := p.withNames p.names.dropLast

end Path

inductive Listed where
  | directory
  | link (target : Path)
  | file (content : RegularFile)

/-- Calls made one after the other, up to the first that is refused. What was done before it
stays. -/
abbrev Setup := ExceptT SystemError (StateM FileSystem)

namespace Setup

def call (change : FileSystem → Except SystemError FileSystem) : Setup Unit := fun fs ↦
  match change fs with
  | .ok fs' => (.ok (), fs')
  | .error e => (.error e, fs)

/-- Makes the first directory of the list; where the one above is missing, that one first. -/
def makeDirectories : List Path → Setup Unit
  | [] => pure ()
  | p :: above =>
    tryCatch (call (·.ensureDirectory p)) fun e ↦
      if e = .notFound then do
        makeDirectories above
        call (·.ensureDirectory p)
      else throw e

def makePath (p : Path) : Setup Unit := makeDirectories p.climb

def place (p : Path) (bytes : ByteArray) (mode : Option Nat) (modified : Option Int) :
    Setup Unit := do
  makeDirectories p.climb.tail
  call (·.writeFile p bytes)
  if let some m := mode then call (·.setMode p m)
  if let some t := modified then call (·.setModified p t)

end Setup

namespace FileSystem

def remove (fs : FileSystem) (p : Path) : FileSystem :=
  let above := if p.names.length ≤ 1 && !p.isAbsolute then .ok fs.here else fs.directory p.parent
  match above with
  | .ok d => fs.updateEntries d (·.filter (·.1 != p.fileName))
  | .error _ => fs

def below (fs : FileSystem) : Nat → String → Inode → List (String × Listed)
  | 0, _, _ => []
  | depth + 1, lead, i =>
    match fs.node? i with
    | some (.directory _ entries) =>
      entries.flatMap fun e ↦
        match fs.node? e.2 with
        | some (.directory _ _) =>
          (lead ++ e.1, .directory) :: fs.below depth (lead ++ e.1 ++ "/") e.2
        | some (.file f) => [(lead ++ e.1, .file f)]
        | some (.link target) => [(lead ++ e.1, .link target)]
        | some (.device _) | none => []
    | _ => []

def listing (fs : FileSystem) (i : Inode) : List (String × Listed) :=
  (fs.below fs.nodes.size "" i).mergeSort fun a b ↦ a.1 ≤ b.1

def namesUp (fs : FileSystem) : Nat → Inode → List String
  | 0, _ => []
  | n + 1, i =>
    match fs.node? i with
    | some (.directory parent _) =>
      if parent = i then []
      else
        match fs.node? parent with
        | some (.directory _ entries) =>
          match entries.find? (·.2 == i) with
          | some e => e.1 :: fs.namesUp n parent
          | none => []
        | _ => []
    | _ => []

def pathOf (fs : FileSystem) (i : Inode) : Path :=
  ⟨"/" ++ "/".intercalate (fs.namesUp fs.nodes.size i).reverse⟩

end FileSystem

end BootMedia
