import BootMedia.Shell.Syntax

namespace BootMedia.Shell

/-- What a redirection does to its channel; the operand comes behind it. -/
inductive Arrow where
  | file (how : Opening) (isForced : Bool)
  | duplicate
  | document (isIndented : Bool)
deriving DecidableEq, Repr

inductive Token where
  | word (word : Word)
  | keyword (text : String)
  | operator (text : String)
  | arrow (channel : Nat) (arrow : Arrow)
  | newline
  | finish

namespace Token

def keywords : List String :=
  ["!", "case", "do", "done", "elif", "else", "esac", "fi", "for", "if", "in", "then", "until",
   "while", "\x7b", "\x7d"]

def closers : List String :=
  [")", ";;", "do", "done", "elif", "else", "esac", "fi", "then", "\x7d"]

def endsList : Token → Bool
  | keyword text | operator text => closers.contains text
  | finish => true
  | _ => false

def mark (text : String) : String := "\"" ++ text ++ "\""

def description : Token → String
  | word _ => "word"
  | keyword text | operator text => mark text
  | arrow _ _ => "redirection"
  | newline => "newline"
  | finish => "end of file"

def plainText? : Token → Option String
  | word [.text t] => some t
  | _ => none

end Token

end BootMedia.Shell
