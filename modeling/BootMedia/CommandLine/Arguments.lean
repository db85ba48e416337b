import BootMedia.Flags

namespace BootMedia.CommandLine

inductive ValueOption where
  | linker
  | compiler
deriving DecidableEq, Repr

namespace ValueOption

def all : List ValueOption := [linker, compiler]

def name : ValueOption → String
  | linker => "linkerflags"
  | compiler => "rustflags"

def long (o : ValueOption) : String := "--" ++ o.name

def short : ValueOption → String
  | linker => "-lf"
  | compiler => "-rf"

def display : ValueOption → String
  | linker => "--linkerflags <LINKER_FLAGS>"
  | compiler => "--rustflags <RUST_FLAGS>"

def ofName? (name : List Char) : Option ValueOption := all.find? (·.name.toList == name)

end ValueOption

/-- A short spelling, alone or with an equals sign and a value after it, with the long one in its
place. -/
def expandShort (argument : String) : String :=
  let expand? (o : ValueOption) : Option String :=
    if argument = o.short then some o.long
    else
      ((o.short ++ "=").toList.isPrefixOf? argument.toList).map fun value ↦
        o.long ++ "=" ++ .ofList value
  (ValueOption.all.findSome? expand?).getD argument

inductive UsageError where
  | missing (places : List String)
  | unknownOption (option : String)
  | surplusName (name : String)
  | noValue (option : ValueOption)
  | repeated (option : ValueOption)
  | needlessValue (value option : String)
deriving DecidableEq, Repr

inductive Stop where
  | help
  | version
  | usage (error : UsageError)
deriving DecidableEq, Repr

structure Arguments where
  action : String
  architecture : String
  configuration : String
  flags : Flags
deriving DecidableEq, Repr

inductive Shape where
  | separator
  | long (name : List Char) (value : Option (List Char))
  | short (first : Char)
  | name
deriving DecidableEq, Repr

def afterEquals? (cs : List Char) : Option (List Char) :=
  match cs.dropWhile (· ≠ '=') with
  | [] => none
  | _ :: value => some value

/-- A lone dash is a name. -/
def shape (argument : List Char) : Shape :=
  match argument with
  | ['-', '-'] => .separator
  | '-' :: '-' :: cs => .long (cs.takeWhile (· ≠ '=')) (afterEquals? cs)
  | '-' :: c :: _ => .short c
  | _ => .name

def places : List String := ["ACTION", "ARCH", "CONFIG"]

structure Progress where
  names : List String
  flags : Flags
  awaiting : Option ValueOption
  /-- An option whose second value has been read; this is found out when the next argument that is
  not an error begins. -/
  twice : Option ValueOption
  onlyNames : Bool
deriving DecidableEq, Repr

namespace Progress

def start : Progress := ⟨[], ⟨none, none⟩, none, none, false⟩

def value? (p : Progress) : ValueOption → Option String
  | .linker => p.flags.linker
  | .compiler => p.flags.compiler

def setValue (p : Progress) (value : String) : ValueOption → Progress
  | .linker => { p with flags := { p.flags with linker := some value } }
  | .compiler => { p with flags := { p.flags with compiler := some value } }

def settle (p : Progress) : Except Stop Progress :=
  match p.twice with
  | some o => .error (.usage (.repeated o))
  | none => .ok p

def takeName (p : Progress) (argument : String) : Except Stop Progress :=
  if p.names.length < places.length then do
    let p ← p.settle
    return { p with names := p.names ++ [argument] }
  else .error (.usage (.surplusName argument))

def takeValue (p : Progress) (o : ValueOption) (value : String) : Progress :=
  if (p.value? o).isSome then { p with awaiting := none, twice := some o }
  else { p.setValue value o with awaiting := none }

def takeOption (p : Progress) (o : ValueOption) : Option (List Char) → Except Stop Progress
  | none => do
    let p ← p.settle
    return { p with awaiting := some o }
  | some value => do
    let p ← p.settle
    if (p.value? o).isSome then .error (.usage (.repeated o))
    else return p.setValue (.ofList value) o

def takeStop (p : Progress) (stop : Stop) (option : String) :
    Option (List Char) → Except Stop Progress
  | none => do
    let _ ← p.settle
    .error stop
  | some value => .error (.usage (.needlessValue (.ofList value) option))

def takeLong (p : Progress) (name : List Char) (value : Option (List Char)) :
    Except Stop Progress :=
  match ValueOption.ofName? name with
  | some o => p.takeOption o value
  | none =>
    if name = "help".toList then p.takeStop .help "--help" value
    else if name = "version".toList then p.takeStop .version "--version" value
    else .error (.usage (.unknownOption ("--" ++ .ofList name)))

def takeShort (p : Progress) (c : Char) : Except Stop Progress :=
  if c = 'h' then p.takeStop .help "-h" none
  else if c = 'V' then p.takeStop .version "-V" none
  else .error (.usage (.unknownOption ("-" ++ .singleton c)))

def take (p : Progress) (argument : String) : Except Stop Progress :=
  match p.awaiting with
  | some o => .ok (p.takeValue o argument)
  | none =>
    if p.onlyNames then p.takeName argument
    else
      match shape argument.toList with
      | .separator => .ok { p with onlyNames := true }
      | .long name value => p.takeLong name value
      | .short c => p.takeShort c
      | .name => p.takeName argument

def finish (p : Progress) : Except Stop Arguments :=
  match p.awaiting with
  | some o => .error (.usage (.noValue o))
  | none => do
    let p ← p.settle
    match p.names with
    | [action, architecture, configuration] => .ok ⟨action, architecture, configuration, p.flags⟩
    | names => .error (.usage (.missing (places.drop names.length)))

end Progress

/-- Reads arguments in which short spellings have been replaced. -/
def read (arguments : List String) : Except Stop Arguments := do
  let p ← arguments.foldlM Progress.take Progress.start
  p.finish

def parse (arguments : List String) : Except Stop Arguments := read (arguments.map expandShort)

end BootMedia.CommandLine
