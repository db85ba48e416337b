import BootMedia.CommandLine.Arguments
import BootMedia.Environment
import BootMedia.Pipeline
import BootMedia.Text.Similarity
import BootMedia.Text.Styled

namespace BootMedia.CommandLine

open Text (Styled plain styled)

def forceStyleVariable : String := "CLICOLOR_FORCE"

def noStyleVariable : String := "NO_COLOR"

/-- Whether a run with the given environment writes styles. An empty variable counts as not set. -/
def isStyled (e : Environment) : Bool :=
  let isSet (name : String) : Bool := (e.get? name).any (!·.isEmpty)
  isSet forceStyleVariable && !isSet noStyleVariable

def versionNumber : String := "0.1.0"

def versionText : String := programName ++ " " ++ versionNumber ++ "\n"

def usage : Styled :=
  styled .heading "Usage:" ++ plain (" " ++ programName ++ " <action> <arch> <config> [options]")

def offered (α : Type) [Choice α] : String := ", ".intercalate (Choice.supported α)

def helpText : Styled :=
  plain "Build script for iron\n\n" ++ usage ++ plain "\n\n" ++
  styled .heading "Arguments:" ++ plain "\n" ++
  plain ("  <ACTION>  The action to perform: " ++ offered Action ++ "\n") ++
  plain ("  <ARCH>    The architecture to build for: " ++ offered Architecture ++ "\n") ++
  plain ("  <CONFIG>  The configuration to build: " ++ offered Configuration ++ "\n\n") ++
  styled .heading "Options:" ++ plain "\n" ++
  plain "      " ++ styled .literal "--linkerflags" ++
  plain " <LINKER_FLAGS>  Linker flags, wrapped in -Clink-args= (also -lf)\n" ++
  plain "      " ++ styled .literal "--rustflags" ++
  plain " <RUST_FLAGS>      Rust compiler flags (also -rf)\n" ++
  plain "  " ++ styled .literal "-h" ++ plain ", " ++ styled .literal "--help" ++
  plain "                        Print help\n" ++
  plain "  " ++ styled .literal "-V" ++ plain ", " ++ styled .literal "--version" ++
  plain "                     Print version\n"

def longNames : List String := ValueOption.all.map (·.name) ++ ["help", "version"]

def suggestionBound : Float := 0.7

/-- The name most similar to the given one, the last of them if there are several, if it is similar
enough. -/
def suggestion? (name : String) : Option String :=
  let better (best : Option (Float × String)) (known : String) :=
    let share := Text.similarity name known
    if suggestionBound < share && best.all (·.1 ≤ share) then some (share, known) else best
  (longNames.foldl better none).map (·.2)

namespace UsageError

def message : UsageError → Styled
  | missing places =>
    plain "the following required arguments were not provided:" ++
      places.flatMap fun p ↦ plain "\n  " ++ styled .valid ("<" ++ p ++ ">")
  | unknownOption text | surplusName text =>
    plain "unexpected argument '" ++ styled .invalid text ++ plain "' found"
  | noValue o =>
    plain "a value is required for '" ++ styled .invalid o.display ++
      plain "' but none was supplied"
  | repeated o =>
    plain "the argument '" ++ styled .invalid o.display ++
      plain "' cannot be used multiple times"
  | needlessValue value option =>
    plain "unexpected value '" ++ styled .invalid value ++ plain "' for '" ++
      styled .literal option ++ plain "' found; no more were expected"

def similar? (option : String) : Option String :=
  if option.startsWith "--" then suggestion? (option.drop 2).toString else none

def tip : UsageError → Styled
  | unknownOption text =>
    plain "\n\n  " ++ styled .valid "tip:" ++
      match similar? text with
      | some name =>
        plain " a similar argument exists: '" ++ styled .valid ("--" ++ name) ++ plain "'"
      | none =>
        plain " to pass '" ++ styled .invalid text ++ plain "' as a value, use '" ++
          styled .valid ("-- " ++ text) ++ plain "'"
  | _ => []

def reminder : UsageError → Styled
  | noValue _ => []
  | _ => plain "\n\n" ++ usage

def text (e : UsageError) : Styled :=
  styled .error "error:" ++ plain " " ++ e.message ++ e.tip ++ e.reminder ++
    plain "\n\nFor more information, try '" ++ styled .literal "--help" ++ plain "'.\n"

end UsageError

end BootMedia.CommandLine
