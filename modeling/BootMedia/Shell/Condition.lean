import BootMedia.FileSystem.Walk
import BootMedia.Shell.Number
import BootMedia.Text.Octets

namespace BootMedia.Shell.Condition

inductive Token where
  | finish
  | operand
  | unary (name : String)
  | binary (name : String)
  | not
  | and
  | or
  | left
  | right
deriving DecidableEq, Repr

def unaryNames : List String :=
  ["-r", "-w", "-x", "-e", "-f", "-d", "-c", "-b", "-p", "-u", "-g", "-k", "-s", "-t", "-z", "-n",
   "-h", "-O", "-G", "-L", "-S"]

def binaryNames : List String :=
  ["=", "!=", "<", ">", "-eq", "-ne", "-ge", "-gt", "-le", "-lt", "-nt", "-ot", "-ef"]

def isBinary (word : String) : Bool := binaryNames.contains word

namespace Token

/-- Whether the first word is an operand though it looks like an operator for one: nothing follows
it, or something that is to be compared with it. -/
def isLone : List String → Bool
  | _ :: w :: _ :: _ => isBinary w
  | [_, _] => false
  | _ => true

def ofWords (words : List String) : Token :=
  match words with
  | [] => finish
  | w :: rest =>
    if unaryNames.contains w then if isLone words then operand else unary w
    else if isBinary w then binary w
    else
      match w with
      | "!" => not
      | "-a" => and
      | "-o" => or
      | "(" => if rest.isEmpty then operand else left
      | ")" => right
      | _ => operand

end Token

inductive Trouble where
  | missingArgument (operator : String)
  | unexpectedOperator (word : String)
  | unclosed
  | illegalNumber (word : String)
deriving DecidableEq, Repr

namespace Trouble

def message : Trouble → String
  | missingArgument operator => operator ++ ": argument expected"
  | unexpectedOperator "" => "unexpected operator"
  | unexpectedOperator word => word ++ ": unexpected operator"
  | unclosed => "closing paren expected"
  | illegalNumber word => "Illegal number: " ++ word

end Trouble

section Files

variable (fs : FileSystem)

def path (word : String) : Path := ⟨Text.Octets.toText word⟩

def node? (word : String) : Option Node := (fs.resolve (path word)).toOption.bind fs.node?

def isLink (word : String) : Bool :=
  match fs.locateName (path word) with
  | .ok (.node i) => (fs.node? i matches some (.link _))
  | _ => false

def holdsFor (operator : String) (n : Node) : Bool :=
  match operator, n with
  | "-e", _ | "-O", _ | "-G", _ => true
  | "-f", .file _ | "-d", .directory _ _ | "-c", .device _ => true
  | "-r", .file f => f.isReadable
  | "-w", .file f => f.isWritable
  | "-x", .file f => f.isExecutable
  | "-r", _ | "-w", _ => true
  | "-x", .directory _ _ => true
  | "-s", .file f => !f.bytes.isEmpty
  | "-s", .directory _ _ => true
  | "-u", .file f => f.mode &&& 0o4000 != 0
  | "-g", .file f => f.mode &&& 0o2000 != 0
  | "-k", .file f => f.mode &&& 0o1000 != 0
  | _, _ => false

def modified? (word : String) : Option Int :=
  match node? fs word with
  | some (.file f) => some f.modified
  | some _ => some 0
  | none => none

def isNewer (a b : String) : Bool :=
  match modified? fs a, modified? fs b with
  | some s, some t => t < s
  | _, _ => false

def isSameFile (a b : String) : Bool :=
  match fs.resolve (path a), fs.resolve (path b) with
  | .ok i, .ok j => i == j
  | _, _ => false

end Files

variable (fs : FileSystem)

def number (word : String) : Except Trouble Int :=
  match Number.whole? word with
  | some n => .ok n
  | none => .error (.illegalNumber word)

def unary (operator word : String) : Except Trouble Bool :=
  match operator with
  | "-z" => .ok word.isEmpty
  | "-n" => .ok !word.isEmpty
  | "-t" => (number word).map fun _ ↦ false
  | "-h" | "-L" => .ok (isLink fs word)
  | _ => .ok ((node? fs word).any (holdsFor operator))

def relation (operator : String) (m n : Int) : Bool :=
  match operator with
  | "-eq" => m = n
  | "-ne" => m ≠ n
  | "-ge" => n ≤ m
  | "-gt" => n < m
  | "-le" => m ≤ n
  | _ => m < n

def binary (operator a b : String) : Except Trouble Bool :=
  match operator with
  | "=" => .ok (a == b)
  | "!=" => .ok (a != b)
  | "<" => .ok (a < b)
  | ">" => .ok (b < a)
  | "-nt" => .ok (isNewer fs a b)
  | "-ot" => .ok (isNewer fs b a)
  | "-ef" => .ok (isSameFile fs a b)
  | _ => return relation operator (← number a) (← number b)

mutual

/-- The value of a part that begins with the first of some words, which is taken for `t`, and the
words from the last one of the part on. -/
def disjunction : Nat → Token → List String → Except Trouble (Bool × List String)
  | 0, _, words => .ok (false, words)
  | limit + 1, t, words => do
    let (a, words) ← conjunction limit t words
    if Token.ofWords words.tail = .or then
      let rest := words.tail.tail
      let (b, words) ← disjunction limit (.ofWords rest) rest
      return (a || b, words)
    else return (a, words)

def conjunction : Nat → Token → List String → Except Trouble (Bool × List String)
  | 0, _, words => .ok (false, words)
  | limit + 1, t, words => do
    let (a, words) ← negation limit t words
    if Token.ofWords words.tail = .and then
      let rest := words.tail.tail
      let (b, words) ← conjunction limit (.ofWords rest) rest
      return (a && b, words)
    else return (a, words)

def negation : Nat → Token → List String → Except Trouble (Bool × List String)
  | 0, _, words => .ok (false, words)
  | limit + 1, t, words => do
    if t = .not then
      let next := Token.ofWords words.tail
      let (a, words) ← negation limit next (if next = .finish then words else words.tail)
      return (!a, words)
    else primary limit t words

def primary : Nat → Token → List String → Except Trouble (Bool × List String)
  | 0, _, words => .ok (false, words)
  | limit + 1, t, words =>
    match t, words with
    | .finish, _ | _, [] => .ok (false, words)
    | .left, _ :: rest =>
      let next := Token.ofWords rest
      if next = .right then .ok (false, rest)
      else do
        let (a, words) ← disjunction limit next rest
        if Token.ofWords words.tail = .right then return (a, words.tail) else .error .unclosed
    | .unary operator, _ :: rest =>
      match rest with
      | [] => .error (.missingArgument operator)
      | w :: _ => do return (← unary fs operator w, rest)
    | _, w :: rest =>
      match Token.ofWords rest with
      | .binary operator =>
        match rest.tail with
        | [] => .error (.missingArgument operator)
        | v :: _ => do return (← binary fs operator w v, rest.tail)
      | _ => .ok (!w.isEmpty, words)

end

def whole (t : Token) (words : List String) : Except Trouble Bool := do
  let (a, rest) ← disjunction fs (4 * words.length + 8) t words
  match rest with
  | w :: _ :: _ => .error (.unexpectedOperator w)
  | _ => return a

/-- The value of a condition, or its opposite if `isNegated` is set. One of three words, of which
the one in the middle compares, is not looked at otherwise; in others of three or four words,
parentheses around all or a negation of the rest come first. Of such negations one after the other
all count as one. -/
def valueWithin : Nat → Bool → List String → Except Trouble Bool
  | 0, isNegated, _ | _, isNegated, [] => .ok isNegated
  | limit + 1, isNegated, words =>
    let answer (v : Except Trouble Bool) : Except Trouble Bool := v.map (· != isNegated)
    let long : Except Trouble Bool :=
      match words.head?, words.getLast? with
      | some "(", some ")" =>
        let inside := words.tail.dropLast
        answer (whole fs (.ofWords inside) inside)
      | some "!", _ => valueWithin limit true words.tail
      | _, _ => answer (whole fs (.ofWords words) words)
    match words with
    | [_, operator, _] => if isBinary operator then answer (whole fs .operand words) else long
    | [_, _, _, _] => long
    | _ => answer (whole fs (.ofWords words) words)

def value (words : List String) : Except Trouble Bool :=
  valueWithin fs words.length false words

end BootMedia.Shell.Condition
