import BootMedia.Shell.Token

namespace BootMedia.Shell

structure Checks where
  newlines : Bool
  keywords : Bool
  aliases : Bool
  isMark : Bool
deriving DecidableEq, Repr

namespace Checks

def none : Checks := ⟨false, false, false, false⟩

def command : Checks := { none with keywords := true, aliases := true }

def laterCommand : Checks := { command with newlines := true }

def or (a b : Checks) : Checks :=
  ⟨a.newlines || b.newlines, a.keywords || b.keywords, a.aliases || b.aliases, a.isMark || b.isMark⟩

end Checks

/-- A text that stands in the script for an alias, or the script itself. -/
structure Passage where
  rest : List Char
  name : Option String
  endsInBlank : Bool

/-- A document whose text comes on the next lines. -/
structure Awaited where
  number : Nat
  mark : String
  isIndented : Bool
  isQuoted : Bool

structure Reader where
  passages : List Passage
  line : Nat
  aliases : List (String × String)
  token : Token
  isPutBack : Bool
  checks : Checks
  awaited : List Awaited
  documents : List (Nat × Word)
  nextDocument : Nat

namespace Reader

def start (text : String) (aliases : List (String × String)) (nextDocument : Nat) : Reader where
  passages := [⟨text.toList, none, false⟩]
  line := 1
  aliases := aliases
  token := .newline
  isPutBack := false
  checks := .none
  awaited := []
  documents := []
  nextDocument := nextDocument

end Reader

abbrev Reading := ExceptT String (StateM Reader)

namespace Reading

def stepLimit : Nat := 1 <<< 40

def tooLong {α : Type} : Reading α := throw "Script too long"

/-- Takes a character from the first passage that has one; passages that have ended are left. -/
def pull : List Passage → Bool → Option (Char × List Passage × Bool)
  | [], _ => none
  | p :: ps, blank =>
    match p.rest with
    | c :: cs => some (c, { p with rest := cs } :: ps, blank)
    | [] => pull ps (blank || p.endsInBlank)

def next : Reading (Option Char) := modifyGet fun r ↦
  match pull r.passages false with
  | some (c, ps, blank) =>
    let checks := { r.checks with aliases := r.checks.aliases || blank }
    (some c, { r with passages := ps, checks := checks })
  | none => (none, { r with passages := r.passages.drop (r.passages.length - 1) })

def unread (c : Option Char) : Reading Unit :=
  match c with
  | none => pure ()
  | some c => modify fun r ↦
    match r.passages with
    | p :: ps => { r with passages := { p with rest := c :: p.rest } :: ps }
    | [] => { r with passages := [⟨[c], none, false⟩] }

def endLine : Reading Unit := modify fun r ↦ { r with line := r.line + 1 }

def nextJoined : Nat → Reading (Option Char)
  | 0 => tooLong
  | limit + 1 => do
    match ← next with
    | some '\\' =>
      match ← next with
      | some '\n' =>
        endLine
        nextJoined limit
      | c =>
        unread c
        return some '\\'
    | c => return c

def joined : Reading (Option Char) := nextJoined stepLimit

def skipChar (c : Char) : Reading Bool := do
  let d ← joined
  if d = some c then return true
  unread d
  return false

def takeWhile (p : Char → Bool) : Nat → List Char → Reading (List Char)
  | 0, _ => tooLong
  | limit + 1, reversed => do
    match ← joined with
    | some c =>
      if p c then takeWhile p limit (c :: reversed)
      else
        unread (some c)
        return reversed.reverse
    | none => return reversed.reverse

end Reading

end BootMedia.Shell
