import BootMedia.Environment
import BootMedia.Shell.Syntax

namespace BootMedia.Shell

structure Variable where
  /-- None while the variable is known but not set. -/
  value : Option String
  isExported : Bool
  isReadOnly : Bool
deriving DecidableEq, Repr

def Variable.unset : Variable := ⟨none, false, false⟩

abbrev Variables := List (String × Variable)

namespace Variables

def find (vs : Variables) (name : String) : Variable := (vs.lookup name).getD .unset

def value? (vs : Variables) (name : String) : Option String := (vs.find name).value

def modify (vs : Variables) (name : String) (change : Variable → Variable) : Variables :=
  if vs.any (·.1 == name) then vs.map fun v ↦ if v.1 == name then (name, change v.2) else v
  else vs ++ [(name, change .unset)]

def set (vs : Variables) (name value : String) : Variables :=
  vs.modify name ({ · with value := some value })

def fixedNames : List String :=
  ["IFS", "MAIL", "MAILPATH", "PATH", "PS1", "PS2", "PS4", "OPTIND"]

def unset (vs : Variables) (name : String) : Variables :=
  if fixedNames.contains name then vs.modify name ({ · with value := none })
  else vs.filter (·.1 != name)

def restore (vs : Variables) (name : String) (before : Option Variable) : Variables :=
  match before with
  | some v => vs.modify name fun _ ↦ v
  | none => vs.filter (·.1 != name)

/-- The number of lists over which the shell spreads its variables. -/
def listCount : Nat := 39

def listOf (name : String) : Nat :=
  match name.toList with
  | [] => 0
  | c :: cs => (16 * c.toNat + (c :: cs).foldl (fun n c ↦ n + c.toNat) 0) % listCount

def exported (vs : Variables) : List (String × String) :=
  let entries := vs.filterMap fun v ↦
    if v.2.isExported then v.2.value.map fun value ↦ (v.1, value) else none
  (List.range listCount).flatMap fun i ↦ entries.filter fun e ↦ listOf e.1 = i

def sorted (vs : Variables) : Variables := vs.mergeSort fun a b ↦ a.1 ≤ b.1

end Variables

def defaultSeparators : String := " \t\n"

def defaultSearchPath : String := "/usr/local/sbin:/usr/local/bin:/usr/sbin:/usr/bin:/sbin:/bin"

def prompt : String := "# "

def defaultTraceMark : String := "+ "

def Variables.ofEnvironment (e : Environment) (parent : Nat) : Variables :=
  let own : Variables :=
    [("IFS", defaultSeparators), ("PATH", defaultSearchPath), ("PS1", prompt), ("PS2", "> "),
     ("PS4", defaultTraceMark), ("OPTIND", "1")].map fun v ↦ (v.1, ⟨some v.2, false, false⟩)
  let received := e.sorted.filter fun v ↦ isName v.1
  let vs := received.foldl (fun vs v ↦ vs.modify v.1 fun _ ↦ ⟨some v.2, true, false⟩) own
  let vs := vs.modify "IFS" ({ · with value := some defaultSeparators })
  let vs := vs.modify "OPTIND" ({ · with value := some "1" })
  vs.modify "PPID" ({ · with value := some (toString parent) })

end BootMedia.Shell
