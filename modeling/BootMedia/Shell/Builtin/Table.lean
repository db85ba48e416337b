import BootMedia.Shell.Builtin.Control
import BootMedia.Shell.Builtin.Directory
import BootMedia.Shell.Builtin.Input
import BootMedia.Shell.Builtin.Jobs
import BootMedia.Shell.Builtin.Limits
import BootMedia.Shell.Builtin.Lookup
import BootMedia.Shell.Builtin.Output
import BootMedia.Shell.Builtin.Variables

namespace BootMedia.Shell

namespace Builtin

/-- Commands after whose errors the shell does not go on. -/
def specials : List Builtin :=
  [{ special "." (fun _ ↦ return .done) with run := fun inner _ ↦ source inner },
   special ":" fun _ ↦ return .done,
   special "break" (leaveLoops false),
   special "continue" (leaveLoops true),
   { special "eval" (fun _ ↦ return .done) with run := evaluate },
   { special "exec" (fun _ ↦ return .done) with run := fun inner _ ↦ replace inner },
   special "exit" exit,
   { special "export" exporting with assigns := true },
   { special "local" declaring with assigns := true },
   { special "readonly" protecting with assigns := true },
   special "return" leaveFunction,
   special "set" setting,
   special "shift" shifting,
   special "times" fun _ ↦ return times,
   special "trap" trap,
   special "unset" unsetting]

def regulars : List Builtin :=
  [plain "[" (test true),
   { plain "alias" aliasing with assigns := true },
   plain "bg" resume,
   plain "cd" changeDirectory,
   plain "chdir" changeDirectory,
   plain "echo" fun words ↦ return echo words,
   plain "false" fun _ ↦ return .silent 1,
   plain "fg" resume,
   plain "getopts" readOption,
   plain "jobs" listJobs,
   plain "kill" kill,
   plain "printf" printf,
   plain "pwd" showDirectory,
   plain "read" readLine,
   plain "test" (test false),
   plain "true" fun _ ↦ return .done,
   plain "ulimit" limits,
   plain "umask" mask,
   plain "unalias" unaliasing,
   plain "wait" await]

def commandName : String := "command"

def names : List (String × Bool) :=
  (specials ++ regulars).map (fun b ↦ (b.name, b.isSpecial)) ++
    [(commandName, false), ("hash", false), ("type", false)]

def all : List Builtin :=
  specials ++ regulars ++
    [plain commandName (commanding names), plain "hash" (tracking names),
     plain "type" (telling names)]

def find? (name : String) : Option Builtin := all.find? (·.name == name)

end Builtin

end BootMedia.Shell
