import BootMedia.Shell.Reader

namespace BootMedia.Shell

inductive Zone where
  | bare
  | operand
  | quoted (inBraces : Bool)
  | quotedOperand
  | arithmetic
  | document
deriving DecidableEq, Repr

namespace Zone

def isQuoted : Zone → Bool
  | bare | operand => false
  | _ => true

def inner : Zone → Zone
  | bare | operand => operand
  | _ => quotedOperand

def openTrouble : Zone → String
  | bare | operand => "Missing '\x7d'"
  | arithmetic => "Missing '))'"
  | _ => "Unterminated quoted string"

def isEscapable (z : Zone) (c : Char) : Bool :=
  !z.isQuoted || c == '\\' || c == '\x60' || c == '$' ||
    (c == '"' && z != document) ||
    (c == '\x7d' && (z == quotedOperand || z == quoted true))

end Zone

/-- Parts of a script that can stand in others. -/
inductive Part where
  | script
  | enclosed
  | body
  | command
deriving DecidableEq, Repr

structure Nested where
  zone : Zone → Reading Word
  part : Part → Reading Command

namespace Lexer

def addChar (c : Char) : List Piece → List Piece
  | .text t :: ps => .text (t.push c) :: ps
  | ps => .text (.singleton c) :: ps

section Parameter

def isSign (c : Char) : Bool := "#?$!-*@".toList.contains c

def use? (orEmpty : Bool) : Char → Option Use
  | '-' => some (.fallback orEmpty)
  | '+' => some (.substitute orEmpty)
  | '?' => some (.required orEmpty)
  | '=' => some (.assigned orEmpty)
  | _ => none

def operation (n : Nested) (z : Zone) (name : String) : Reading Piece := do
  let rest (u : Use) (inner : Zone) : Reading Piece :=
    return .parameter name u (← n.zone inner)
  match ← Reading.joined with
  | some '\x7d' => return .parameter name .value []
  | some ':' =>
    let c ← Reading.joined
    rest ((c.bind (use? true)).getD .unknown) z.inner
  | some '#' => rest (.trimmed .front (← Reading.skipChar '#')) .operand
  | some '%' => rest (.trimmed .back (← Reading.skipChar '%')) .operand
  | c => rest ((c.bind (use? false)).getD .unknown) z.inner

def parameterName (c : Char) : Reading (Option String) := do
  if isNameStart c then
    return some (.ofList (← Reading.takeWhile isNamePart Reading.stepLimit [c]))
  else if c.isDigit then
    return some (.ofList (← Reading.takeWhile Char.isDigit Reading.stepLimit [c]))
  else if isSign c then return some (.singleton c)
  else return none

def lengthOf (n : Nested) (z : Zone) (name : String) : Reading Piece := do
  let c ← Reading.joined
  Reading.unread c
  return .parameter name (if c = some '\x7d' then .length else .unknown) (← n.zone z.inner)

def braced (n : Nested) (z : Zone) : Reading Piece := do
  let unknown : Reading Piece := return .parameter "" .unknown (← n.zone z.inner)
  match ← Reading.joined with
  | some '#' =>
    match ← Reading.joined with
    | some c =>
      if isNamePart c then
        match ← parameterName c with
        | some name => lengthOf n z name
        | none => unknown
      else if c = '\x7d' then return .parameter "#" .value []
      else
        let d ← Reading.joined
        Reading.unread d
        if d = some '\x7d' then
          if isSign c then lengthOf n z (.singleton c) else unknown
        else
          Reading.unread (some c)
          operation n z "#"
    | none => unknown
  | some c =>
    match ← parameterName c with
    | some name => operation n z name
    | none =>
      if c = '\x7d' then Reading.unread (some c) else pure ()
      unknown
  | none => unknown

end Parameter

section Commands

/-- Reads with nothing put back or awaited, and goes on as before. -/
def apart {α : Type} (m : Reading α) : Reading α := do
  let r ← get
  set { r with isPutBack := false, awaited := [], checks := .none }
  let a ← m
  modify fun s ↦
    { s with isPutBack := false, awaited := r.awaited, checks := r.checks }
  return a

/-- The text between backquotes, where a backslash can stand before a backslash, a dollar or a
backquote and, between quotes, before a quote. -/
def backquoted (isQuoted : Bool) : Nat → List Char → Reading (List Char)
  | 0, _ => Reading.tooLong
  | limit + 1, reversed => do
    match ← Reading.joined with
    | none => throw "EOF in backquote substitution"
    | some '\x60' => return reversed.reverse
    | some '\\' =>
      match ← Reading.next with
      | some c =>
        if c = '\\' || c = '\x60' || c = '$' || (isQuoted && c = '"') then
          backquoted isQuoted limit (c :: reversed)
        else
          if c = '\n' then Reading.endLine
          backquoted isQuoted limit (c :: '\\' :: reversed)
      | none => backquoted isQuoted limit ('\\' :: reversed)
    | some c =>
      if c = '\n' then Reading.endLine
      backquoted isQuoted limit (c :: reversed)

def backquotedCommand (n : Nested) (z : Zone) : Reading Piece := do
  let text ← backquoted z.isQuoted Reading.stepLimit []
  let r ← get
  set { r with passages := [⟨text, none, false⟩], line := 1 }
  let command ← apart (n.part .script)
  modify fun s ↦ { s with passages := r.passages, line := r.line }
  return .output command

end Commands

def dollar (n : Nested) (z : Zone) : Reading (Option Piece) := do
  if (← get).checks.isMark then return none
  match ← Reading.joined with
  | some '(' =>
    if ← Reading.skipChar '(' then return some (.arithmetic (← n.zone .arithmetic))
    return some (.output (← apart (n.part .enclosed)))
  | some '\x7b' => return some (← braced n z)
  | some c =>
    if c.isDigit then return some (.parameter (.singleton c) .value [])
    match ← parameterName c with
    | some name => return some (.parameter name .value [])
    | none =>
      Reading.unread (some c)
      return none
  | none => return none

def singleQuoted : Nat → List Char → Reading (List Char)
  | 0, _ => Reading.tooLong
  | limit + 1, reversed => do
    match ← Reading.next with
    | none => throw "Unterminated quoted string"
    | some '\'' => return reversed.reverse
    | some c =>
      if c = '\n' then Reading.endLine
      singleQuoted limit (c :: reversed)

def escape (z : Zone) (reversed : List Piece) : Reading (List Piece) := do
  match ← Reading.next with
  | none => return .escaped '\\' :: reversed
  | some c =>
    if c = '\n' then Reading.endLine
    return if z.isEscapable c then .escaped c :: reversed
      else .escaped c :: .escaped '\\' :: reversed

def endsWord (c : Char) : Bool := " \t\n&|;()<>".toList.contains c

/-- Reads up to the end of a zone. `depth` counts the parentheses that are open in an arithmetic
expression, and `reversed` holds the pieces so far, the last one first. -/
def pieces (n : Nested) (z : Zone) : Nat → Nat → List Piece → Reading Word
  | 0, _, _ => Reading.tooLong
  | limit + 1, depth, reversed => do
    match ← Reading.joined with
    | none =>
      if z = .bare || z = .document then return reversed.reverse else throw z.openTrouble
    | some c =>
      let add : Reading Word := pieces n z limit depth (addChar c reversed)
      match c with
      | '\\' => pieces n z limit depth (← escape z reversed)
      | '$' =>
        match ← dollar n z with
        | some p => pieces n z limit depth (p :: reversed)
        | none => add
      | '\x60' =>
        if (← get).checks.isMark then add
        else pieces n z limit depth ((← backquotedCommand n z) :: reversed)
      | '"' =>
        match z with
        | .bare => pieces n z limit depth (.quoted (← n.zone (.quoted false)) :: reversed)
        | .operand | .quotedOperand =>
          pieces n z limit depth (.quoted (← n.zone (.quoted true)) :: reversed)
        | .quoted _ => return reversed.reverse
        | .arithmetic | .document => add
      | '\'' =>
        if z.isQuoted then add
        else
          let text ← singleQuoted Reading.stepLimit []
          pieces n z limit depth (.quoted [.text (.ofList text)] :: reversed)
      | '\x7d' =>
        if z = .operand || z = .quotedOperand then return reversed.reverse else add
      | '(' =>
        if z = .arithmetic then pieces n z limit (depth + 1) (addChar c reversed)
        else if z = .bare then
          Reading.unread (some c)
          return reversed.reverse
        else add
      | ')' =>
        if z = .arithmetic then
          if depth > 0 then pieces n z limit (depth - 1) (addChar c reversed)
          else if ← Reading.skipChar ')' then return reversed.reverse
          else add
        else if z = .bare then
          Reading.unread (some c)
          return reversed.reverse
        else add
      | _ =>
        if z = .bare && endsWord c then
          Reading.unread (some c)
          return reversed.reverse
        else
          if c = '\n' then Reading.endLine
          add

def zone (n : Nested) (z : Zone) : Reading Word := pieces n z Reading.stepLimit 0 []

section Arrows

def arrow (c : Char) : Reading (Nat × Arrow) := do
  if c = '>' then
    if ← Reading.skipChar '>' then return (1, .file .addition false)
    else if ← Reading.skipChar '|' then return (1, .file .output true)
    else if ← Reading.skipChar '&' then return (1, .duplicate)
    else return (1, .file .output false)
  else if ← Reading.skipChar '<' then return (0, .document (← Reading.skipChar '-'))
  else if ← Reading.skipChar '&' then return (0, .duplicate)
  else if ← Reading.skipChar '>' then return (0, .file .update false)
  else return (0, .file .input false)

def channel? : Word → Option (Option Nat)
  | [] => some none
  | [.text t] => if t.length = 1 then (numeral? t).map some else none
  | _ => none

def wordOrArrow (n : Nested) : Reading Token := do
  let w ← zone n .bare
  let c ← Reading.joined
  match c, channel? w with
  | some '<', some channel =>
    let (own, a) ← arrow '<'
    return .arrow (channel.getD own) a
  | some '>', some channel =>
    let (own, a) ← arrow '>'
    return .arrow (channel.getD own) a
  | _, _ =>
    Reading.unread c
    return .word w

end Arrows

def token (n : Nested) : Nat → Reading Token
  | 0 => Reading.tooLong
  | limit + 1 => do
    match ← Reading.joined with
    | none => return .finish
    | some c =>
      let pair (second : Char) (long short : String) : Reading Token := do
        return .operator (if ← Reading.skipChar second then long else short)
      match c with
      | ' ' | '\t' => token n limit
      | '#' =>
        skipComment Reading.stepLimit
        token n limit
      | '\n' =>
        Reading.endLine
        return .newline
      | '&' => pair '&' "&&" "&"
      | '|' => pair '|' "||" "|"
      | ';' => pair ';' ";;" ";"
      | '(' => return .operator "("
      | ')' => return .operator ")"
      | _ =>
        Reading.unread (some c)
        wordOrArrow n
where
  skipComment : Nat → Reading Unit
    | 0 => Reading.tooLong
    | limit + 1 => do
      match ← Reading.next with
      | none => pure ()
      | some '\n' => Reading.unread (some '\n')
      | some _ => skipComment limit

end Lexer

end BootMedia.Shell
