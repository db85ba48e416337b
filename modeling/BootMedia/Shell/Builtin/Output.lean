import BootMedia.Shell.Builtin.Basic
import BootMedia.Shell.Printf

namespace BootMedia.Shell

namespace Builtin

def echoed (hasEnd : Bool) : List String → String
  | [] => if hasEnd then "\n" else ""
  | [w] =>
    let (text, isCut) := Printf.unescaped w
    if isCut then text else text ++ echoed hasEnd []
  | w :: ws =>
    let (text, isCut) := Printf.unescaped w
    if isCut then text else text ++ " " ++ echoed hasEnd ws

def echo : List String → Reply
  | "-n" :: words => .ofText (echoed false words)
  | words => .ofText (echoed true words)

def printfUsage : String := "usage: printf format [arg ...]"

/-- Complains first, and prints the text as a whole then. A bad argument is passed over, a bad
format is not. -/
def printf (words : List String) : Act Reply := do
  match ← plainWords words with
  | [] => Act.fail printfUsage
  | format :: arguments =>
    let printed := Printf.print format arguments
    printed.troubles.forM Act.complain
    let status := if printed.isBroken then misuse else if printed.troubles.isEmpty then 0 else 1
    return ⟨status, printed.text⟩

end Builtin

end BootMedia.Shell
