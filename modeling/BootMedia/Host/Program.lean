import BootMedia.Host.Loader
import BootMedia.Host.Search
import BootMedia.Shell.Run
import BootMedia.Utility.Files
import BootMedia.Utility.Texts

namespace BootMedia.Host

section Env

structure Change where
  environment : List (String × String)
  words : List String

def setVariable (e : List (String × String)) (name value : String) : List (String × String) :=
  if e.any (·.1 == name) then e.map fun v ↦ if v.1 == name then (name, value) else v
  else e ++ [(name, value)]

namespace Change

def read : Nat → Change → Except String Change
  | 0, c => .ok c
  | limit + 1, c =>
    match c.words with
    | [] => .ok c
    | word :: rest =>
      match word with
      | "-" | "-i" | "--ignore-environment" => read limit ⟨[], rest⟩
      | "--" => readSettings limit { c with words := rest }
      | "-u" =>
        match rest with
        | [] => .error "option requires an argument -- 'u'"
        | name :: rest => read limit ⟨c.environment.filter (·.1 != name), rest⟩
      | _ =>
        if word.toList.head? = some '-' then .error ("invalid option -- '" ++ (word.drop 1) ++ "'")
        else readSettings (limit + 1) c
where
  readSettings : Nat → Change → Except String Change
    | 0, c => .ok c
    | limit + 1, c =>
      match c.words with
      | [] => .ok c
      | word :: rest =>
        match word.toList.dropWhile (· ≠ '=') with
        | [] => .ok c
        | _ :: value =>
          let name := String.ofList (word.toList.takeWhile (· ≠ '='))
          readSettings limit ⟨setVariable c.environment name (.ofList value), rest⟩

end Change

def envStatus : SystemError → Nat
  | .notFound => 127
  | _ => 126

def env (launch : Launcher) : Program := fun u w ↦
  let finish (task : Task Nat) : Termination × World := Task.program (fun _ ↦ task) u w
  match Change.read u.words.length ⟨u.environment.entries, u.words.tail⟩ with
  | .error text =>
    finish do
      Task.complain text
      return 125
  | .ok c =>
    match c.words with
    | [] => finish (Task.print (String.join (c.environment.map fun v ↦ v.1 ++ "=" ++ v.2 ++ "\n")))
    | name :: _ =>
      let searchPath := c.environment.lookup searchPathVariable
      let u := { u with words := c.words, environment := ⟨c.environment⟩ }
      match startFound (startAt launch u w) searchPath name with
      | .ok result => result
      | .error e =>
        finish do
          Task.complain (Task.quoted name ++ ": " ++ e.text)
          return envStatus e

end Env

def utility (task : List String → Task Nat) : Starter := fun _ ↦ Task.program task

def ofShell (name : String) : Starter := fun launch u ↦
  Shell.run launch
    { u with
      words := [name, "-c", "command " ++ name ++ " \"$@\""] ++ name :: u.words.tail }

def programs : List (String × Starter) :=
  [("sh", Shell.run), ("dash", Shell.run),
   ("[", ofShell "["),
   ("basename", utility Utility.basename),
   ("cat", utility Utility.cat),
   ("chmod", utility Utility.changeMode),
   ("cp", utility Utility.copy),
   ("dirname", utility Utility.dirname),
   ("echo", utility Utility.echo),
   ("env", env),
   ("false", utility fun _ ↦ return 1),
   ("ln", utility Utility.link),
   ("mkdir", utility Utility.makeDirectories),
   ("mv", utility Utility.move),
   ("printf", ofShell "printf"),
   ("pwd", utility fun _ ↦ Utility.workingDirectory),
   ("rm", utility Utility.remove),
   ("rmdir", utility Utility.removeDirectories),
   ("sleep", utility fun _ ↦ return 0),
   ("test", ofShell "test"),
   ("touch", utility Utility.touch),
   ("true", utility fun _ ↦ return 0)]

def processLimit : Nat := 40

/-- Runs the file at a path, for processes that start each other to a depth. -/
def launch : Nat → Launcher
  | 0, _, _, _ => .error .unavailable
  | depth + 1, p, u, w => do
    let loaded ← load w.files loadLimit (Text.Octets.ofText p.text) u.words
    match programs.lookup loaded.program with
    | some start => return start (launch depth) { u with words := loaded.words } w
    | none => .error .badExecutable

def usual : Launcher := launch processLimit

end BootMedia.Host
