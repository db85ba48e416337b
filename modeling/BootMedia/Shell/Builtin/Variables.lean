import BootMedia.Shell.Builtin.Basic
import BootMedia.Shell.Local

namespace BootMedia.Shell

namespace Builtin

def listing (lead : String) (vs : Variables) : String :=
  String.join <| vs.sorted.map fun v ↦
    lead ++ v.1 ++ v.2.value.elim "" (fun value ↦ "=" ++ quoted value) ++ "\n"

def markWord (change : Variable → Variable) (word : String) : Act Unit := do
  let name := String.ofList (word.toList.takeWhile (· ≠ '='))
  match word.toList.dropWhile (· ≠ '=') with
  | _ :: value => Act.assignNamed name (.ofList value)
  | [] => Act.guardName name
  modify fun s ↦ { s with bindings := s.bindings.modify name change }

def mark (name : String) (isMarked : Variable → Bool) (change : Variable → Variable)
    (words : List String) : Act Reply := do
  let (ls, words) ← letters "p" "" words
  if !ls.isEmpty || words.isEmpty then
    return .ofText (listing (name ++ " ") ((← get).bindings.filter (isMarked ·.2)))
  words.forM (markWord change)
  return .done

def exporting : List String → Act Reply :=
  mark "export" (·.isExported) ({ · with isExported := true })

def protecting : List String → Act Reply :=
  mark "readonly" (·.isReadOnly) ({ · with isReadOnly := true })

def declaring (words : List String) : Act Reply := do
  if (← get).locals.isEmpty then Act.fail "not in a function"
  for w in words do
    if w = "-" then Local.keep (.options (← get).options) else Local.declare false w
  return .done

def unsetVariable (name : String) : Act Unit := do
  Act.guardName name
  Act.guardVariable name
  Act.noteChange name ""
  modify fun s ↦ { s with bindings := s.bindings.unset name }

def unsetting (words : List String) : Act Reply := do
  let (ls, words) ← letters "vf" "" words
  if ls.getLast?.any (·.1 = 'f') then
    modify fun s ↦ { s with functions := s.functions.filter fun f ↦ !words.contains f.1 }
  else words.forM unsetVariable
  return .done

def setArguments (arguments : List String) : Act Unit :=
  modify ({ · with arguments := arguments, scan := .start })

/-- Switches options and, where words are left or the options are closed, replaces the arguments. A
dash alone ends the showing of commands. Without any words the variables are listed. -/
def setting (words : List String) : Act Reply := do
  let s ← get
  if words.isEmpty then
    return .ofText (listing "" (s.bindings.filter (·.2.value.isSome)))
  match OptionReading.ofWords false s.options words with
  | .error text => Act.fail text
  | .ok r =>
    let options :=
      if r.isDashed then (r.options.switch "xtrace" false).switch "verbose" false else r.options
    modify ({ · with options := options })
    if r.isClosed || !r.rest.isEmpty then setArguments r.rest
    return .ofText r.shown

def shifting (words : List String) : Act Reply := do
  let n ← Act.number (words.headD "1")
  let s ← get
  if s.arguments.length < n then Act.fail "can't shift that many"
  setArguments (s.arguments.drop n)
  return .done

end Builtin

end BootMedia.Shell
