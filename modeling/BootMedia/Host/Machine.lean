import BootMedia.FileSystem.Tree
import BootMedia.Host.Program

namespace BootMedia.Host

def programDirectory : Path := ⟨"/usr/bin"⟩

def programLink : Path := ⟨"/bin"⟩

def deviceDirectory : Path := ⟨"/dev"⟩

def devices : List (String × Device) :=
  [("null", .null), ("full", .full), ("stdin", .channel 0), ("stdout", .channel 1),
   ("stderr", .channel 2)]

def channelCount : Nat := 10

/-- The home directory of the account under which everything runs. -/
def accountHome : Path := ⟨"/root"⟩

def placeDevices (directory : Path) (devices : List (String × Device)) : Setup Unit :=
  devices.forM fun d ↦ Setup.call fun fs ↦ do
    let i ← fs.directory directory
    return fs.addNode i d.1 (.device d.2)

def furnish : Setup Unit := do
  Setup.makePath programDirectory
  programs.forM fun p ↦ Setup.place (programDirectory / p.1) (image p.1) (some 0o555) none
  Setup.call (·.makeLink programLink ⟨"usr/bin"⟩)
  Setup.makePath (deviceDirectory / "fd")
  placeDevices deviceDirectory devices
  placeDevices (deviceDirectory / "fd")
    ((List.range channelCount).map fun n ↦ (toString n, .channel n))

def machine (directory : Path) (clock : Int) : Except SystemError FileSystem :=
  let setup := do
    furnish
    Setup.makePath ⟨"/tmp"⟩
    Setup.makePath directory
  match setup.run { FileSystem.empty with clock := clock } with
  | (.ok (), fs) => (fs.directory directory).map ({ fs with here := · })
  | (.error e, _) => .error e

structure Described where
  mode : Nat
  path : Path
  text : String
deriving Repr

def ofOctal? (cs : List Char) : Option Nat :=
  if cs.isEmpty then none
  else
    cs.foldlM
      (fun n c ↦ if '0' ≤ c ∧ c ≤ '7' then some (8 * n + (c.toNat - '0'.toNat)) else none) 0

/-- Takes one more line of a description. A line of permission bits in octal and a path begins a
file, a line that begins with a tab belongs to the text of the last file, and others mean nothing.
-/
def Described.addLine (files : List Described) (line : String) : List Described :=
  match line.toList, files with
  | '\t' :: text, file :: rest => { file with text := file.text ++ .ofList text ++ "\n" } :: rest
  | cs, files =>
    match ofOctal? (cs.takeWhile (· ≠ ' ')), cs.dropWhile (· ≠ ' ') with
    | some mode, ' ' :: path => ⟨mode, ⟨.ofList path⟩, ""⟩ :: files
    | _, _ => files

def Described.ofLines (lines : List String) : List Described :=
  (lines.foldl addLine []).reverse

def addDescribed (fs : FileSystem) (files : List Described) : FileSystem :=
  files.foldl (fun fs f ↦ ((Setup.place f.path f.text.toUTF8 (some f.mode) none).run fs).2) fs

end BootMedia.Host
