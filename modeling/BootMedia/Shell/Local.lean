import BootMedia.Shell.State

namespace BootMedia.Shell

namespace Local

/-- Notes something as it was, for the end of the command that it is local in. -/
def keep (k : Kept) : Act Unit := modify fun s ↦
  match s.locals with
  | frame :: frames => { s with locals := (k :: frame) :: frames }
  | [] => s

def declare (isExported : Bool) (word : String) : Act Unit := do
  let name := String.ofList (word.toList.takeWhile (· ≠ '='))
  let before := (← get).bindings.lookup name
  match word.toList.dropWhile (· ≠ '=') with
  | _ :: value => Act.assign name (.ofList value)
  | [] =>
    if before.isNone then Act.guardName name
    modify fun s ↦ { s with bindings := s.bindings.modify name id }
  if isExported then
    modify fun s ↦ { s with bindings := s.bindings.modify name ({ · with isExported := true }) }
  keep (.variable name before)

def enter : Act Unit := modify fun s ↦ { s with locals := [] :: s.locals }

def restore (s : State) : Kept → State
  | .options before => { s with options := before }
  | .variable name before =>
    { s with
      bindings := s.bindings.restore name before
      tracked := if name = "PATH" then [] else s.tracked
      scan :=
        if name = "OPTIND" then
          ⟨max 1 ((before.bind fun v ↦ v.value.bind Number.count?).getD 1), none⟩
        else s.scan }

def leave (depth : Nat) : Act Unit := modify fun s ↦
  let ended := s.locals.take (s.locals.length - depth)
  ended.flatten.foldl restore { s with locals := s.locals.drop ended.length }

end Local

end BootMedia.Shell
