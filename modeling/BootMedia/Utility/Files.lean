import BootMedia.FileSystem.Tree
import BootMedia.Utility.Basic

namespace BootMedia.Utility

section Names

def nodeAt? (fs : FileSystem) (p : Path) : Option Inode :=
  match fs.locateName p with
  | .ok (.node i) => some i
  | _ => none

/-- The path of a file in a directory, if `target` is one, or else `target` itself. -/
def within (fs : FileSystem) (target name : String) : Path :=
  if fs.isDirectory (pathOf target) then pathOf target / (pathOf name).fileName else pathOf target

end Names

def makeDirectories (words : List String) : Task Nat := do
  let (letters, names) := Task.options words
  if names.isEmpty then Task.missingOperand
  else
    Task.each names fun name ↦
      Task.change ("cannot create directory " ++ Task.quoted name) fun fs ↦
        if letters.contains 'p' then
          match (Setup.makePath (pathOf name)).run fs with
          | (.ok (), fs) => .ok fs
          | (.error e, _) => .error e
        else fs.makeDirectory (pathOf name)

def withoutDirectory (fs : FileSystem) (p : Path) : Except SystemError FileSystem := do
  let i ← fs.resolve p
  match fs.node? i with
  | some (.directory _ []) => .ok (fs.remove p)
  | some (.directory _ _) => .error .notEmpty
  | _ => .error .notDirectory

def removeDirectories (words : List String) : Task Nat := do
  let names := (Task.options words).2
  if names.isEmpty then Task.missingOperand
  else
    Task.each names fun name ↦
      Task.change ("failed to remove " ++ Task.quoted name) (withoutDirectory · (pathOf name))

def without (takesTrees isForced : Bool) (fs : FileSystem) (p : Path) :
    Except SystemError FileSystem :=
  match fs.locateName p with
  | .error e => if isForced then .ok fs else .error e
  | .ok (.vacant _ _) => if isForced then .ok fs else .error .notFound
  | .ok (.node i) =>
    if fs.isDirectoryAt i && !takesTrees then .error .isDirectory else .ok (fs.remove p)

def remove (words : List String) : Task Nat := do
  let (letters, names) := Task.options words
  let takesTrees := letters.contains 'r' || letters.contains 'R'
  let isForced := letters.contains 'f'
  if names.isEmpty && !isForced then Task.missingOperand
  else
    Task.each names fun name ↦
      Task.change ("cannot remove " ++ Task.quoted name) fun fs ↦
        without takesTrees isForced fs (pathOf name)

def touched (mask : Nat) (fs : FileSystem) (p : Path) : Except SystemError FileSystem := do
  if fs.isDirectory p then return fs
  let (i, fs) ← fs.openOutput p (FileSystem.masked mask FileSystem.defaultMode)
  return (fs.updateFile i ({ · with modified := fs.clock })).tick

def touch (words : List String) : Task Nat := do
  let names := (Task.options words).2
  let mask := (← read).mask
  if names.isEmpty then Task.missingOperand
  else
    Task.each names fun name ↦
      Task.change ("cannot touch " ++ Task.quoted name) (touched mask · (pathOf name))

/-- Does something with each of some files and the place that it gets at the last of the words. -/
def towards (words : List String) (purpose : String → String → String)
    (call : FileSystem → Path → Path → Except SystemError FileSystem) : Task Nat := do
  match words.getLast?, words.dropLast with
  | some target, name :: names =>
    Task.each (name :: names) fun name ↦ do
      let files := (← get).files
      let place := within files target name
      let purpose := purpose name (Text.Octets.ofText place.text)
      Task.change purpose fun fs ↦ call fs (pathOf name) place
  | _, _ => Task.missingOperand

def copy (words : List String) : Task Nat :=
  towards (Task.options words).2 (fun name _ ↦ "cannot stat " ++ Task.quoted name) fun fs p q ↦
    fs.copyFile p q

def renamed (fs : FileSystem) (p q : Path) : Except SystemError FileSystem := do
  match nodeAt? fs p with
  | none => .error .notFound
  | some i =>
    let fs := fs.remove p
    match fs.locateName q with
    | .ok (.vacant d name) => .ok (fs.updateEntries d (· ++ [(name, i)]))
    | .ok (.node _) =>
      match (fs.remove q).locateName q with
      | .ok (.vacant d name) => .ok ((fs.remove q).updateEntries d (· ++ [(name, i)]))
      | .ok (.node _) => .error .alreadyExists
      | .error e => .error e
    | .error e => .error e

def move (words : List String) : Task Nat :=
  towards (Task.options words).2 (fun name _ ↦ "cannot stat " ++ Task.quoted name) renamed

def link (words : List String) : Task Nat :=
  let (letters, names) := Task.options words
  let names := if names.length = 1 then names ++ ["."] else names
  let make (fs : FileSystem) (p q : Path) : Except SystemError FileSystem :=
    let fs := if letters.contains 'f' then fs.remove q else fs
    if letters.contains 's' then fs.makeLink q p
    else
      match nodeAt? fs p, fs.locateName q with
      | none, _ => .error .notFound
      | some i, .ok (.vacant d name) => .ok (fs.updateEntries d (· ++ [(name, i)]))
      | some _, .ok (.node _) => .error .alreadyExists
      | some _, .error e => .error e
  let kind := if letters.contains 's' then "symbolic link " else "hard link "
  towards names (fun _ place ↦ "failed to create " ++ kind ++ Task.quoted place) make

def modeOf? (text : String) (bits : Nat) : Option Nat :=
  let digits := text.toList
  if !digits.isEmpty && digits.all (fun c ↦ '0' ≤ c && c ≤ '7') then
    some (digits.foldl (fun n c ↦ 8 * n + (c.toNat - '0'.toNat)) 0)
  else if text = "+x" || text = "a+x" then some (bits ||| 0o111)
  else if text = "u+x" then some (bits ||| 0o100)
  else if text = "-x" || text = "a-x" then some (bits &&& 0o7666)
  else none

def changeMode (words : List String) : Task Nat := do
  match words with
  | mode :: name :: names =>
    Task.each (name :: names) fun name ↦
      Task.change ("cannot access " ++ Task.quoted name) fun fs ↦
        match (fs.file? (pathOf name)).bind (modeOf? mode ·.mode) with
        | some m => fs.setMode (pathOf name) m
        | none => (fs.resolve (pathOf name)).map fun _ ↦ fs
  | _ => Task.missingOperand

def workingDirectory : Task Nat := do
  let files := (← get).files
  Task.print (Text.Octets.ofText (files.pathOf files.here).text ++ "\n")

end BootMedia.Utility
