import BootMedia.Process.Opening

namespace BootMedia.Shell

inductive Side where
  | front
  | back
deriving DecidableEq, Repr

/-- What is made of a parameter. Where `orEmpty` is set, an empty value counts as none. -/
inductive Use where
  | value
  | length
  | trimmed (side : Side) (longest : Bool)
  | fallback (orEmpty : Bool)
  | substitute (orEmpty : Bool)
  | assigned (orEmpty : Bool)
  | required (orEmpty : Bool)
  | unknown
deriving DecidableEq, Repr

mutual

inductive Piece where
  | text (text : String)
  | escaped (c : Char)
  | quoted (pieces : List Piece)
  | parameter (name : String) (use : Use) (operand : List Piece)
  | output (command : Command)
  | arithmetic (expression : List Piece)

inductive Redirection where
  | file (channel : Nat) (how : Opening) (isForced : Bool) (name : List Piece)
  | duplicate (channel : Nat) (source : List Piece)
  | document (channel : Nat) (number : Nat)

/-- Commands that can tell on which line of a script they begin do so. -/
inductive Command where
  | nothing
  | simple (line : Nat) (assignments words : List (List Piece)) (redirections : List Redirection)
  | pipeline (commands : List Command)
  | negation (command : Command)
  | both (first second : Command)
  | either (first second : Command)
  | sequence (commands : List Command)
  | background (line : Nat) (command : Command) (redirections : List Redirection)
  | subshell (line : Nat) (command : Command) (redirections : List Redirection)
  | redirected (line : Nat) (command : Command) (redirections : List Redirection)
  | conditional (test whenTrue whenFalse : Command)
  | loop (isUntil : Bool) (test body : Command)
  | each (line : Nat) (name : String) (words : List (List Piece)) (body : Command)
  | choice (line : Nat) (subject : List Piece) (branches : List (List (List Piece) × Command))
  | definition (line : Nat) (name : String) (body : Command)

end

instance : Inhabited Command := ⟨.nothing⟩

abbrev Word := List Piece

section Names

def isNameStart (c : Char) : Bool := c.isAlpha || c == '_'

def isNamePart (c : Char) : Bool := c.isAlphanum || c == '_'

def isName (text : String) : Bool :=
  match text.toList with
  | [] => false
  | c :: cs => isNameStart c && cs.all isNamePart

def assignment? (text : String) : Option (String × String) :=
  let name := String.ofList (text.toList.takeWhile (· ≠ '='))
  match text.toList.dropWhile (· ≠ '=') with
  | _ :: value => if isName name then some (name, .ofList value) else none
  | [] => none

def isAssignment : Word → Bool
  | .text t :: _ => (assignment? t).isSome
  | _ => false

def numeral? (text : String) : Option Nat :=
  if text.toList.all Char.isDigit then text.toNat? else none

end Names

end BootMedia.Shell
