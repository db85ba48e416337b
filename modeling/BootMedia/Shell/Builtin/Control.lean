import BootMedia.Shell.Builtin.Basic
import BootMedia.Shell.Condition
import BootMedia.Shell.Search

namespace BootMedia.Shell

namespace Builtin

def test (isBracket : Bool) (words : List String) : Act Reply := do
  if isBracket && words.getLast? ≠ some "]" then Act.fail "missing ]"
  let words := if isBracket then words.dropLast else words
  match Condition.value (← get).world.files words with
  | .ok holds => return .silent (if holds then 0 else 1)
  | .error trouble => Act.fail trouble.message

def leaveLoops (goesOn : Bool) (words : List String) : Act Reply := do
  let n ← Act.number (words.headD "1")
  if n = 0 then Act.fail ("Illegal number: " ++ words.headD "")
  let s ← get
  let count := min n s.loops
  if count ≠ 0 then set { s with leaving := .loops count goesOn }
  return .done

def leaveFunction (words : List String) : Act Reply := do
  match words with
  | [] =>
    modify ({ · with leaving := .function false })
    return .silent (← get).status
  | word :: _ =>
    let status ← Act.number word
    modify ({ · with leaving := .function true })
    return .silent status

def exit (words : List String) : Act Reply := do
  if let word :: _ := words then
    let status ← Act.number word
    modify ({ · with untrapped := some status })
  throw (.exit true)

def evaluate (inner : Inner) (m : Manner) (words : List String) : Act Reply := do
  if words.isEmpty then return .done
  inner.script false m.isTested (" ".intercalate words)
  return .silent (← get).status

/-- The file of a script, which is looked for as programs are, but need not be executable. -/
def scriptPath (name : String) : Act String := do
  if name.toList.contains '/' then return name
  let files := (← get).world.files
  match (Search.paths (← searchPath) name).find? fun p ↦ files.isFile (pathOf p) with
  | some p => return p
  | none => Act.fail (name ++ ": not found")

def readScript (path : String) : Act String := do
  match (← get).world.files.openInput (pathOf path) with
  | .ok (_, f) => return Text.Octets.read f.bytes
  | .error .isDirectory => return ""
  | .error e => Act.fail ("cannot open " ++ path ++ ": " ++ openingTrouble e)

def source (inner : Inner) (words : List String) : Act Reply := do
  match ← plainWords words with
  | [] => return .done
  | name :: _ =>
    let path ← scriptPath name
    let text ← readScript path
    modify ({ · with speaker := some path })
    inner.script true false text
    modify fun s ↦
      { s with leaving := if s.leaving matches .function _ then .none else s.leaving }
    return .silent (← get).status

def replace (inner : Inner) (words : List String) : Act Reply := do
  match words with
  | [] => return .done
  | name :: _ => becomeProgram inner words (Search.paths (← searchPath) name)

end Builtin

end BootMedia.Shell
