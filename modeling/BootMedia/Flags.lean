import BootMedia.Text.Blank

namespace BootMedia

structure Flags where
  compiler : Option String
  linker : Option String
deriving DecidableEq, Repr, Inhabited

namespace Flags

def linkerLead : String := "-Clink-args="

def separator : Char := '\x1f'

def compilerArguments (f : Flags) : List String :=
  (Text.words (f.compiler.getD "").toList).map .ofList

def linkerArguments (f : Flags) : List String :=
  match Text.trim (f.linker.getD "").toList with
  | [] => []
  | flags => [linkerLead ++ .ofList flags]

/-- Linker flags stay one argument, with the spaces inside them. -/
def arguments (f : Flags) : List String := f.compilerArguments ++ f.linkerArguments

def display (f : Flags) : String := " ".intercalate f.arguments

def encode (f : Flags) : String := (String.singleton separator).intercalate f.arguments

/-- How the toolchain reads its arguments: an empty text holds none, any other one is cut at every
separator. -/
def decode (s : String) : List String :=
  if s.isEmpty then [] else (s.toList.splitOn separator).map .ofList

end Flags

end BootMedia
