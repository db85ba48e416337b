import BootMedia.Path
import BootMedia.Text.Quoted

namespace BootMedia

inductive EnvChange where
  | set (name value : String)
  | remove (name : String)
deriving DecidableEq, Repr

namespace EnvChange

def name : EnvChange → String
  | set name _ | remove name => name

def value? : EnvChange → Option String
  | set _ value => some value
  | remove _ => none

/-- An assignment as it is printed; a removal is not. -/
def display : EnvChange → String
  | set name value => name ++ "=" ++ Text.quoted value ++ " "
  | remove _ => ""

end EnvChange

structure Invocation where
  program : String
  arguments : List String
  changes : List EnvChange
  directory : Option Path
deriving DecidableEq, Repr

namespace Invocation

def ofProgram (program : String) : Invocation := ⟨program, [], [], none⟩

def withArguments (i : Invocation) (arguments : List String) : Invocation :=
  { i with arguments := i.arguments ++ arguments }

def change (i : Invocation) (c : EnvChange) : Invocation := { i with changes := i.changes ++ [c] }

def set (i : Invocation) (name value : String) : Invocation := i.change (.set name value)

def unset (i : Invocation) (name : String) : Invocation := i.change (.remove name)

def inDirectory (i : Invocation) (directory : Path) : Invocation :=
  { i with directory := some directory }

def value? (i : Invocation) (name : String) : Option String :=
  (i.changes.findRev? (·.name == name)).bind (·.value?)

def display (i : Invocation) : String :=
  String.join (i.changes.map (·.display)) ++ i.program ++
    String.join (i.arguments.map (" " ++ ·))

end Invocation

end BootMedia
