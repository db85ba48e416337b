namespace BootMedia.Shell

structure OptionKind where
  name : String
  letter : Option Char
deriving DecidableEq, Repr

def OptionKind.all : List OptionKind :=
  [⟨"errexit", some 'e'⟩, ⟨"noglob", some 'f'⟩, ⟨"ignoreeof", some 'I'⟩,
   ⟨"interactive", some 'i'⟩, ⟨"monitor", some 'm'⟩, ⟨"noexec", some 'n'⟩, ⟨"stdin", some 's'⟩,
   ⟨"xtrace", some 'x'⟩, ⟨"verbose", some 'v'⟩, ⟨"vi", some 'V'⟩, ⟨"emacs", some 'E'⟩,
   ⟨"noclobber", some 'C'⟩, ⟨"allexport", some 'a'⟩, ⟨"notify", some 'b'⟩,
   ⟨"nounset", some 'u'⟩, ⟨"privileged", some 'p'⟩, ⟨"nolog", none⟩, ⟨"debug", none⟩]

structure Options where
  on : List String
deriving DecidableEq, Repr

namespace Options

def none : Options := ⟨[]⟩

def isOn (o : Options) (name : String) : Bool := o.on.contains name

def switch (o : Options) (name : String) (value : Bool) : Options :=
  let others := o.on.filter (· != name)
  ⟨if value then name :: others else others⟩

def exitsOnFailure (o : Options) : Bool := o.isOn "errexit"

def needsValues (o : Options) : Bool := o.isOn "nounset"

def shows (o : Options) : Bool := o.isOn "xtrace"

def echoes (o : Options) : Bool := o.isOn "verbose"

def isIdle (o : Options) : Bool := o.isOn "noexec"

def keepsPatterns (o : Options) : Bool := o.isOn "noglob"

def keepsFiles (o : Options) : Bool := o.isOn "noclobber"

def exportsAll (o : Options) : Bool := o.isOn "allexport"

def letters (o : Options) : String :=
  .ofList (OptionKind.all.reverse.filterMap fun k ↦ if o.isOn k.name then k.letter else .none)

def table (o : Options) : String :=
  let line (k : OptionKind) : String :=
    k.name ++ String.ofList (List.replicate (16 - k.name.length) ' ') ++
      (if o.isOn k.name then "on" else "off") ++ "\n"
  "Current option settings\n" ++ String.join (OptionKind.all.map line)

def commands (o : Options) : String :=
  String.join <| OptionKind.all.map fun k ↦
    "set " ++ (if o.isOn k.name then "-o " else "+o ") ++ k.name ++ "\n"

end Options

structure OptionReading where
  options : Options
  isCommand : Bool
  isDashed : Bool
  isClosed : Bool
  shown : String
  rest : List String
deriving DecidableEq, Repr

namespace OptionReading

def start (o : Options) (words : List String) : OptionReading :=
  ⟨o, false, false, false, "", words⟩

/-- Reads one letter. An option given by its name takes the word behind; without a name, the options
are shown. -/
def letter (isLine : Bool) (r : OptionReading) (on : Bool) (c : Char) :
    Except String OptionReading :=
  match c, r.rest with
  | 'o', [] =>
    .ok { r with shown := r.shown ++ if on then r.options.table else r.options.commands }
  | 'o', name :: rest =>
    if OptionKind.all.any (·.name == name) then
      .ok { r with options := r.options.switch name on, rest := rest }
    else .error ("Illegal option -o " ++ name)
  | _, _ =>
    if isLine && c = 'c' then .ok { r with isCommand := true }
    else if isLine && c = 'l' then .ok r
    else
      match OptionKind.all.find? (·.letter == some c) with
      | some k => .ok { r with options := r.options.switch k.name on }
      | none => .error ("Illegal option -" ++ .singleton c)

def readWords (isLine : Bool) : Nat → OptionReading → Except String OptionReading
  | 0, r => .ok r
  | limit + 1, r =>
    match r.rest.map String.toList, r.rest.tail with
    | ['-'] :: _, rest => .ok { r with isDashed := true, rest := rest }
    | ['-', '-'] :: _, rest => .ok { r with isClosed := true, rest := rest }
    | ('-' :: letters) :: _, rest => do
      let r ← letters.foldlM (letter isLine · true) { r with rest := rest }
      readWords isLine limit r
    | ('+' :: letters) :: _, rest => do
      let r ← letters.foldlM (letter isLine · false) { r with rest := rest }
      readWords isLine limit r
    | _, _ => .ok r

/-- The options that words begin with, or what is wrong with them. `isLine` says that the words are
the command line of the shell. -/
def ofWords (isLine : Bool) (o : Options) (words : List String) : Except String OptionReading :=
  readWords isLine words.length (start o words)

end OptionReading

end BootMedia.Shell
