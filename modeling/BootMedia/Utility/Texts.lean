import BootMedia.FileSystem.Tree
import BootMedia.Utility.Basic

namespace BootMedia.Utility

def echo (words : List String) : Task Nat :=
  match words with
  | "-n" :: rest => Task.print (" ".intercalate rest)
  | _ => Task.print (" ".intercalate words ++ "\n")

def catText (text : String) : Task Bool := return (← Task.print text) = 0

def catChannel : Task Bool := do
  let u ← read
  match (u.channels.lookup 0).map (← get).readAll with
  | some (.ok (text, w)) =>
    set w
    catText text
  | some (.error e) =>
    Task.complain ("-: " ++ e.text)
    return false
  | none =>
    Task.complain ("-: " ++ SystemError.badChannel.text)
    return false

def catFile (name : String) : Task Bool := do
  if name = "-" then catChannel
  else
    match (← get).files.openInput (pathOf name) with
    | .ok (_, f) => catText (Text.Octets.read f.bytes)
    | .error e =>
      Task.complain (name ++ ": " ++ e.text)
      return false

/-- Prints files one after the other. Without a channel to print on it does not begin, and without
one to read it complains once more in the end. -/
def cat (words : List String) : Task Nat := do
  let names := (Task.options words).2
  let names := if names.isEmpty then ["-"] else names
  let isOpen (channel : Nat) : Task Bool := return ((← read).channels.lookup channel).isSome
  if !(← isOpen 1) then
    Task.complain ("standard output: " ++ SystemError.badChannel.text)
    return 1
  let status ← Task.each names catFile
  if names.contains "-" && !(← isOpen 0) then
    Task.complain ("closing standard input: " ++ SystemError.badChannel.text)
    return 1
  return status

def lastName (path ending : String) : String :=
  let p := Path.mk path
  let name := if p.names.isEmpty && !path.isEmpty then "/" else p.fileName
  if ending.length < name.length && name.endsWith ending then (name.dropEnd ending.length).toString
  else name

def basename (words : List String) : Task Nat :=
  match words with
  | [] => Task.missingOperand
  | path :: rest => Task.print (lastName path (rest.headD "") ++ "\n")

def pathAbove (path : String) : String :=
  let above := ((Path.mk path).parent).text
  if above.isEmpty then "." else above

def dirname (words : List String) : Task Nat :=
  match words with
  | [] => Task.missingOperand
  | paths => Task.print (String.join (paths.map (pathAbove · ++ "\n")))

end BootMedia.Utility
