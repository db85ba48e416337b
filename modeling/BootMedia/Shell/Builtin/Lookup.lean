import BootMedia.Shell.Builtin.Basic
import BootMedia.Shell.Search

namespace BootMedia.Shell

namespace Builtin

section Aliases

def aliasLine (a : String × String) : String := a.1 ++ "=" ++ quoted a.2 ++ "\n"

def aliasListing (aliases : List (String × String)) : String :=
  String.join <| (List.range Variables.listCount).flatMap fun i ↦
    (aliases.filter (Variables.listOf ·.1 = i)).map aliasLine

def aliasOf? (word : String) : Option (String × String) :=
  match word.toList with
  | [] => none
  | c :: cs =>
    match cs.dropWhile (· ≠ '=') with
    | _ :: value => some (.ofList (c :: cs.takeWhile (· ≠ '=')), .ofList value)
    | [] => none

def defineAlias (aliases : List (String × String)) (name value : String) :
    List (String × String) :=
  if aliases.any (·.1 == name) then
    aliases.map fun a ↦ if a.1 == name then (name, value) else a
  else aliases ++ [(name, value)]

def noAlias (command name : String) : Act Unit :=
  Act.say 2 (command ++ ": " ++ name ++ " not found\n")

def aliasWord (r : Reply) (word : String) : Act Reply := do
  let s ← get
  match aliasOf? word with
  | some (name, value) =>
    set { s with aliases := defineAlias s.aliases name value }
    return r
  | none =>
    match s.aliases.find? (·.1 == word) with
    | some a => return { r with text := r.text ++ aliasLine a }
    | none =>
      noAlias "alias" word
      return { r with status := 1 }

def aliasing (words : List String) : Act Reply := do
  if words.isEmpty then return .ofText (aliasListing (← get).aliases)
  words.foldlM aliasWord .done

def unaliasing (words : List String) : Act Reply := do
  let (ls, names) ← letters "a" "" words
  if !ls.isEmpty then
    modify ({ · with aliases := [] })
    return .done
  let mut status := 0
  for name in names do
    let s ← get
    if s.aliases.any (·.1 == name) then
      set { s with aliases := s.aliases.filter (·.1 != name) }
    else
      noAlias "unalias" name
      status := 1
  return .silent status

end Aliases

section Names

inductive Meaning where
  | keyword
  | aliased (value : String)
  | function
  | builtin (isSpecial : Bool)
  | program (path : String)
  | tracked (path : String)
  | unknown

namespace Meaning

def description : Meaning → String
  | keyword => " is a shell keyword"
  | aliased value => " is an alias for " ++ value
  | function => " is a shell function"
  | builtin isSpecial => " is a " ++ (if isSpecial then "special " else "") ++ "shell builtin"
  | program path => " is " ++ path
  | tracked path => " is a tracked alias for " ++ path
  | unknown => ": not found"

def brief (name : String) : Meaning → String
  | aliased value => "alias " ++ name ++ "=" ++ quoted value
  | program path | tracked path => path
  | _ => name

def isKnown : Meaning → Bool
  | unknown => false
  | _ => true

end Meaning

/-- The program that a name stands for. `isUsual` says that it is looked for in the usual places. -/
def programMeaning (isUsual : Bool) (path name : String) : Act Meaning := do
  let s ← get
  if name.toList.contains '/' then
    return if (s.world.files.resolve (pathOf name)).toOption.isSome then .program name else .unknown
  match if isUsual then s.tracked.lookup name else none with
  | some p => return .tracked p
  | none =>
    match ← findProgram path name with
    | .ok (p :: _) => return .program p
    | _ => return .unknown

/-- What a name stands for, the commands of the shell being given with whether they are special. A
search path can be given that takes the place of the usual one. -/
def meaning (commands : List (String × Bool)) (path : Option String) (name : String) :
    Act Meaning := do
  let s ← get
  if Token.keywords.contains name then return .keyword
  match s.aliases.lookup name with
  | some value => return .aliased value
  | none =>
    if s.functions.any (·.1 == name) then return .function
    match commands.lookup name with
    | some isSpecial => return .builtin isSpecial
    | none => programMeaning path.isNone (path.getD (← searchPath)) name

def telling (commands : List (String × Bool)) (words : List String) : Act Reply := do
  let tell (r : Reply) (name : String) : Act Reply := do
    let m ← meaning commands none name
    return ⟨if m.isKnown then r.status else unknownCommand,
      r.text ++ name ++ m.description ++ "\n"⟩
  words.foldlM tell .done

def tellOne (commands : List (String × Bool)) (path : Option String) (isBrief : Bool)
    (name : String) : Act Reply := do
  let m ← meaning commands path name
  let text := if isBrief then m.brief name else name ++ m.description
  if m.isKnown then return .ofText (text ++ "\n")
  else return ⟨unknownCommand, if isBrief then "" else text ++ "\n"⟩

def commanding (commands : List (String × Bool)) (words : List String) : Act Reply := do
  let (ls, words) ← letters "pvV" "" words
  let path := if ls.any (·.1 = 'p') then some defaultSearchPath else none
  match ls.reverse.find? (·.1 ≠ 'p'), words with
  | some (c, _), name :: _ => tellOne commands path (c = 'v') name
  | _, _ => return .done

/-- The lists over which the shell spreads the programs that it has found. -/
def trackedListCount : Nat := 31

def trackedListOf (name : String) : Nat :=
  match name.toList with
  | [] => 0
  | c :: cs => (16 * c.toNat + (c :: cs).foldl (fun n c ↦ n + c.toNat) 0) % trackedListCount

def tracking (commands : List (String × Bool)) (words : List String) : Act Reply := do
  let (ls, names) ← letters "r" "" words
  if !ls.isEmpty then
    modify ({ · with tracked := [] })
    return .done
  if names.isEmpty then
    let found := (← get).tracked
    let lists := (List.range trackedListCount).flatMap fun i ↦
      found.filter (trackedListOf ·.1 = i)
    return .ofText (String.join (lists.map (·.2 ++ "\n")))
  let mut status := 0
  for name in names do
    let isOwn := (commands.lookup name).isSome || (← get).functions.any (·.1 == name)
    if !isOwn then
      if let .error e ← findProgram (← searchPath) name then
        let _ ← complainOf name e
        status := 1
  return .silent status

end Names

end Builtin

end BootMedia.Shell
