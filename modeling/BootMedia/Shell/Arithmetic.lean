import BootMedia.Shell.Number
import BootMedia.Shell.Syntax

namespace BootMedia.Shell.Arithmetic

/-- The operators that have two operands, and how strongly they bind: the lowest number binds
most. -/
def strengths : List (String × Nat) :=
  [("*", 0), ("/", 0), ("%", 0), ("+", 1), ("-", 1), ("<<", 2), (">>", 2), ("<", 3), ("<=", 3),
   (">", 3), (">=", 3), ("==", 4), ("!=", 4), ("&", 5), ("^", 6), ("|", 7)]

def weakest : Nat := 7

inductive Token where
  | number (n : Int64)
  | name (text : String)
  | operator (text : String)
  | stray
deriving DecidableEq, Repr

section Read

def operators : List String :=
  ["<<=", ">>=", "<<", ">>", "<=", ">=", "==", "!=", "&&", "||", "+=", "-=", "*=", "/=", "%=", "&=",
   "|=", "^=", "<", ">", "=", "!", "&", "|", "+", "-", "*", "/", "%", "^", "~", "(", ")", "?", ":"]

def tokens : Nat → List Char → List Token
  | 0, _ | _, [] => []
  | limit + 1, c :: cs =>
    if c = ' ' || c = '\t' || c = '\n' then tokens limit cs
    else if c.isDigit then
      match Number.magnitude (c :: cs) with
      | (some n, rest) => .number (.ofInt (Number.nearest n)) :: tokens limit rest
      | (none, _) => [.stray]
    else if isNameStart c then
      .name (.ofList ((c :: cs).takeWhile isNamePart)) ::
        tokens limit ((c :: cs).dropWhile isNamePart)
    else
      match operators.find? fun o ↦ o.toList.isPrefixOf (c :: cs) with
      | some o => .operator o :: tokens limit ((c :: cs).drop o.length)
      | none => [.stray]

end Read

inductive Expression where
  | number (n : Int64)
  | name (text : String)
  | unary (operator : String) (e : Expression)
  | binary (operator : String) (a b : Expression)
  | both (a b : Expression)
  | either (a b : Expression)
  | conditional (test a b : Expression)
  /-- A name gets the value of the expression, or what an operator makes of its own value and that
  one. -/
  | assignment (name : String) (operator : Option String) (e : Expression)
deriving Repr

section Parse

abbrev Parsed := Except String (Expression × List Token)

def assigning? (operator : String) : Option (Option String) :=
  if operator = "=" then some none
  else
    match operator.toList.reverse with
    | '=' :: rest =>
      let o := String.ofList rest.reverse
      if (strengths.lookup o).isSome && o ≠ "<" && o ≠ ">" && o ≠ "=" then some (some o) else none
    | _ => none

mutual

def primary : Nat → List Token → Parsed
  | 0, _ => .error "expecting primary"
  | limit + 1, ts =>
    match ts with
    | .number n :: rest => .ok (.number n, rest)
    | .name x :: rest => .ok (.name x, rest)
    | .operator "(" :: rest => do
      match ← assignment limit rest with
      | (e, .operator ")" :: rest) => .ok (e, rest)
      | _ => .error "expecting ')'"
    | .operator o :: rest =>
      if o = "+" || o = "-" || o = "!" || o = "~" then do
        let (e, rest) ← primary limit rest
        .ok (.unary o e, rest)
      else .error "expecting primary"
    | _ => .error "expecting primary"

def binaryTail : Nat → Nat → Expression → List Token → Parsed
  | 0, _, _, _ => .error "expecting primary"
  | limit + 1, weakest, a, ts =>
    match ts with
    | .operator o :: rest =>
      match strengths.lookup o with
      | some n =>
        if weakest < n then .ok (a, ts)
        else do
          let (b, rest) ← primary limit rest
          let (b, rest) ← if n = 0 then .ok (b, rest) else binaryTail limit (n - 1) b rest
          binaryTail limit weakest (.binary o a b) rest
      | none => .ok (a, ts)
    | _ => .ok (a, ts)

def conjunction : Nat → List Token → Parsed
  | 0, _ => .error "expecting primary"
  | limit + 1, ts => do
    let (a, rest) ← primary limit ts
    let (a, rest) ← binaryTail limit weakest a rest
    match rest with
    | .operator "&&" :: rest =>
      let (b, rest) ← conjunction limit rest
      .ok (.both a b, rest)
    | _ => .ok (a, rest)

def disjunction : Nat → List Token → Parsed
  | 0, _ => .error "expecting primary"
  | limit + 1, ts => do
    let (a, rest) ← conjunction limit ts
    match rest with
    | .operator "||" :: rest =>
      let (b, rest) ← disjunction limit rest
      .ok (.either a b, rest)
    | _ => .ok (a, rest)

def conditional : Nat → List Token → Parsed
  | 0, _ => .error "expecting primary"
  | limit + 1, ts => do
    let (test, rest) ← disjunction limit ts
    match rest with
    | .operator "?" :: rest =>
      match ← assignment limit rest with
      | (a, .operator ":" :: rest) =>
        let (b, rest) ← conditional limit rest
        .ok (.conditional test a b, rest)
      | _ => .error "expecting ':'"
    | _ => .ok (test, rest)

def assignment : Nat → List Token → Parsed
  | 0, _ => .error "expecting primary"
  | limit + 1, ts =>
    match ts with
    | .name x :: .operator o :: rest =>
      match assigning? o with
      | some operator => do
        let (e, rest) ← assignment limit rest
        .ok (.assignment x operator e, rest)
      | none => conditional limit ts
    | _ => conditional limit ts

end

def parse (text : String) : Except String Expression := do
  let ts := tokens text.length text.toList
  match ← assignment (8 * (ts.length + 1)) ts with
  | (e, []) => .ok e
  | _ => .error "expecting EOF"

end Parse

section Evaluate

def ofBool (b : Bool) : Int64 := if b then 1 else 0

def combine? (operator : String) (a b : Int64) : Option Int64 :=
  match operator with
  | "*" => some (a * b)
  | "/" => if b = 0 then none else some (a / b)
  | "%" => if b = 0 then none else some (a % b)
  | "+" => some (a + b)
  | "-" => some (a - b)
  | "<<" => some (a <<< b)
  | ">>" => some (a >>> b)
  | "<" => some (ofBool (a < b))
  | "<=" => some (ofBool (a ≤ b))
  | ">" => some (ofBool (b < a))
  | ">=" => some (ofBool (b ≤ a))
  | "==" => some (ofBool (a == b))
  | "!=" => some (ofBool (a != b))
  | "&" => some (a &&& b)
  | "^" => some (a ^^^ b)
  | _ => some (a ||| b)

def applyUnary (operator : String) (a : Int64) : Int64 :=
  match operator with
  | "-" => -a
  | "!" => ofBool (a == 0)
  | "~" => ~~~a
  | _ => a

/-- Where an expression finds the values of names, leaves them, and reports what is wrong. -/
structure Store (m : Type → Type) where
  get : String → m Int64
  set : String → Int64 → m Unit
  fail : String → m Int64

variable {m : Type → Type} [Monad m]

def divide (s : Store m) (operator : String) (a b : Int64) : m Int64 :=
  match combine? operator a b with
  | some c => pure c
  | none => s.fail "division by zero"

def eval (s : Store m) : Expression → m Int64
  | .number n => pure n
  | .name x => s.get x
  | .unary o e => return applyUnary o (← eval s e)
  | .binary o a b => do
    let a ← eval s a
    let b ← eval s b
    divide s o a b
  | .both a b => do
    if (← eval s a) = 0 then return 0
    return ofBool ((← eval s b) != 0)
  | .either a b => do
    if (← eval s a) ≠ 0 then return 1
    return ofBool ((← eval s b) != 0)
  | .conditional test a b => do
    if (← eval s test) ≠ 0 then eval s a else eval s b
  | .assignment x o e => do
    let v ← eval s e
    let v ←
      match o with
      | some o => divide s o (← s.get x) v
      | none => pure v
    s.set x v
    return v

end Evaluate

end BootMedia.Shell.Arithmetic
