import BootMedia.Environment
import BootMedia.Invocation.Basic

namespace BootMedia

structure Command where
  program : String
  arguments : List String
  directory : Option Path
  environment : List (String × Option String)
  /-- Whether one of its other texts had to be replaced. -/
  hasNull : Bool
deriving DecidableEq, Repr

namespace Command

def record (name : String) (value : Option String) :
    List (String × Option String) → List (String × Option String)
  | [] => [(name, value)]
  | entry :: rest =>
    if name < entry.1 then (name, value) :: entry :: rest
    else if name = entry.1 then (name, value) :: rest
    else entry :: record name value rest

def entries (changes : List EnvChange) : List (String × Option String) :=
  changes.foldl (fun es c ↦ record c.name c.value? es) []

def childEnvironment (c : Command) (e : Environment) : Environment := e.applyAll c.environment

end Command

def Command.placeholder : String := "<string-with-nul>"

def Command.holdsNull (text : String) : Bool := text.toList.contains '\x00'

def Command.handed (text : String) : String := if holdsNull text then placeholder else text

def Invocation.toCommand (i : Invocation) : Command where
  program := Command.handed i.program
  arguments := i.arguments.map Command.handed
  directory := i.directory.map fun d ↦ ⟨Command.handed d.text⟩
  environment := Command.entries i.changes
  hasNull := (i.program :: i.arguments ++ (i.directory.map (·.text)).toList).any Command.holdsNull

/-- Whether a command is not started at all: a null character was in a text of it, or is in a
variable that it sets. -/
def Command.isRefused (c : Command) : Bool :=
  c.hasNull ||
    c.environment.any fun v ↦ v.2.any fun value ↦ holdsNull v.1 || holdsNull value

end BootMedia
