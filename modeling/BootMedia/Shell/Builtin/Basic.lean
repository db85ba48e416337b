import BootMedia.Shell.Child

namespace BootMedia.Shell

structure Reply where
  status : Nat
  text : String

namespace Reply

def silent (status : Nat) : Reply := ⟨status, ""⟩

def done : Reply := silent 0

def ofText (text : String) : Reply := ⟨0, text⟩

end Reply

structure Builtin where
  name : String
  /-- An error in it ends the shell, and assignments before it stay. -/
  isSpecial : Bool
  assigns : Bool
  run : Inner → Manner → List String → Act Reply

namespace Builtin

def plain (name : String) (run : List String → Act Reply) : Builtin :=
  ⟨name, false, false, fun _ _ ↦ run⟩

def special (name : String) (run : List String → Act Reply) : Builtin :=
  { plain name run with isSpecial := true }

end Builtin

section Letters

abbrev Letter := Char × Option String

/-- Reads the letters of one word, the words behind it being given; `known` says of a letter whether
it takes a text. Answers the letters and the words that are left. -/
def lettersOfWord (known : Char → Option Bool) :
    List Char → List String → Act (List Letter × List String)
  | [], words => return ([], words)
  | c :: cs, words =>
    match known c with
    | none => Act.fail ("Illegal option -" ++ .singleton c)
    | some false => do
      let (ls, words) ← lettersOfWord known cs words
      return ((c, none) :: ls, words)
    | some true =>
      match cs, words with
      | [], [] => Act.fail ("No arg for -" ++ .singleton c ++ " option")
      | [], w :: ws => return ([(c, some w)], ws)
      | _, _ => return ([(c, some (.ofList cs))], words)

def lettersWithin (known : Char → Option Bool) :
    Nat → List String → Act (List Letter × List String)
  | 0, words => return ([], words)
  | limit + 1, words =>
    match words.map String.toList, words.tail with
    | ['-', '-'] :: _, rest => return ([], rest)
    | ('-' :: c :: cs) :: _, rest => do
      let (ls, rest) ← lettersOfWord known (c :: cs) rest
      let (more, rest) ← lettersWithin known limit rest
      return (ls ++ more, rest)
    | _, _ => return ([], words)

def letters (bare full : String) (words : List String) : Act (List Letter × List String) :=
  lettersWithin
    (fun c ↦
      if bare.toList.contains c then some false
      else if full.toList.contains c then some true
      else none)
    words.length words

def plainWords (words : List String) : Act (List String) := return (← letters "" "" words).2

end Letters

def quoted (text : String) : String :=
  go text.length text.toList
where
  go : Nat → List Char → String
    | 0, _ => "''"
    | limit + 1, cs =>
      let plain := "'" ++ .ofList (cs.takeWhile (· ≠ '\'')) ++ "'"
      match cs.dropWhile (· ≠ '\'') with
      | [] => plain
      | rest =>
        let quotes := "\"" ++ .ofList (rest.takeWhile (· = '\'')) ++ "\""
        match rest.dropWhile (· = '\'') with
        | [] => plain ++ quotes
        | more => plain ++ quotes ++ go limit more

end BootMedia.Shell
