import BootMedia.FileSystem.Tree
import BootMedia.Shell.Builtin.Basic
import BootMedia.Shell.Redirection

namespace BootMedia.Shell

namespace Directory

def withoutName (root : Nat) : List Char → List Char
  | [] => []
  | c :: cs =>
    if (c :: cs).length ≤ root then c :: cs
    else if cs.head? = some '/' then cs
    else withoutName root cs

def step (root : Nat) (way : List Char) (name : List Char) : List Char :=
  if name.isEmpty || name = ['.'] then way
  else if name = ['.', '.'] then withoutName root way
  else '/' :: (name.reverse ++ way)

/-- Where a path leads from a directory, if links are not looked at. The way to the directory stays
as it is written, as far as it is not taken back. Exactly two slashes at the beginning of a path
stay two. -/
def resolved (here path : String) : String :=
  let isAbsolute := Path.startsAtRoot path
  let isDouble (cs : List Char) : Bool := ['/', '/'].isPrefixOf cs
  let start : List Char :=
    if !isAbsolute then here.toList
    else if isDouble path.toList && path.toList[2]? ≠ some '/' then ['/', '/']
    else ['/']
  let start := if start.getLast? = some '/' then start else start ++ ['/']
  let root := if isDouble start then 2 else 1
  let way := (path.toList.splitOn '/').foldl (step root) start.reverse
  .ofList (if root < way.length then way.tail else way).reverse

def physical (fs : FileSystem) : String := Text.Octets.ofText (fs.pathOf fs.here).text

def note (path : String) : Act Unit := do
  modify ({ · with directory := path })
  Act.assign "PWD" path
  modify fun s ↦ { s with bindings := s.bindings.modify "PWD" ({ · with isExported := true }) }

def enter (isPhysical : Bool) (path : String) : Act Bool := do
  let s ← get
  let logical := resolved s.directory path
  let target := if isPhysical then path else logical
  match s.world.files.directory (pathOf target) with
  | .error _ => return false
  | .ok i =>
    let files := { s.world.files with here := i }
    set { s with world := { s.world with files := files } }
    Act.assign "OLDPWD" s.directory
    modify fun s ↦
      { s with bindings := s.bindings.modify "OLDPWD" ({ · with isExported := true }) }
    note (if isPhysical then physical files else logical)
    return true

end Directory

namespace Builtin

def isPhysical (ls : List Letter) : Bool := ls.getLast?.any (·.1 = 'P')

def isFixed (path : String) : Bool :=
  match path.toList with
  | '/' :: _ | ['.'] | '.' :: '/' :: _ | ['.', '.'] | '.' :: '.' :: '/' :: _ => true
  | _ => false

def places (searchPath : Option String) (path : String) : List (String × Bool) :=
  match searchPath with
  | none => [(path, false)]
  | some text =>
    (text.toList.splitOn ':').map fun entry ↦
      if entry.isEmpty then (path, false) else (.ofList entry ++ "/" ++ path, true)

def changeDirectory (words : List String) : Act Reply := do
  let (ls, words) ← letters "LP" "" words
  let isBack := words.head? = some "-"
  let path ←
    match words.head? with
    | none => pure ((← Act.valueOf? "HOME").getD "")
    | some w => if isBack then pure ((← Act.valueOf? "OLDPWD").getD "") else pure w
  let name := if path.isEmpty then "." else path
  let s ← get
  let candidates := if isFixed path then [] else places (s.bindings.value? "CDPATH") name
  let isThere (p : String × Bool) : Bool := s.world.files.isDirectory (pathOf p.1)
  let (target, isShown) := (candidates.find? isThere).getD (name, false)
  if ← Directory.enter (isPhysical ls) target then
    if isShown || isBack then return .ofText ((← get).directory ++ "\n")
    return .done
  else Act.fail ("can't cd to " ++ name)

def showDirectory (words : List String) : Act Reply := do
  let (ls, _) ← letters "LP" "" words
  let s ← get
  let path := if isPhysical ls then Directory.physical s.world.files else s.directory
  return .ofText (path ++ "\n")

end Builtin

end BootMedia.Shell
