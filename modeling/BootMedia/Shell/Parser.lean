import BootMedia.Shell.Lexer

namespace BootMedia.Shell

namespace Parser

section Tokens

def putBack : Reading Unit := modify ({ · with isPutBack := true })

def check (c : Checks) : Reading Unit := modify ({ · with checks := c })

def rawToken (n : Nested) : Reading Token := do
  let r ← get
  if r.isPutBack then
    set { r with isPutBack := false }
    return r.token
  let t ← Lexer.token n Reading.stepLimit
  modify ({ · with token := t })
  return t

section Documents

def documentLine (isQuoted : Bool) : Nat → List Char → Reading (List Char × Bool)
  | 0, _ => Reading.tooLong
  | limit + 1, reversed => do
    match ← if isQuoted then Reading.next else Reading.joined with
    | none => return (reversed.reverse, false)
    | some '\n' =>
      Reading.endLine
      return (reversed.reverse, true)
    | some '\\' =>
      if isQuoted then documentLine isQuoted limit ('\\' :: reversed)
      else
        match ← Reading.next with
        | some c => documentLine isQuoted limit (c :: '\\' :: reversed)
        | none => return (('\\' :: reversed).reverse, false)
    | some c => documentLine isQuoted limit (c :: reversed)

def documentText (a : Awaited) : Nat → List Char → Reading (List Char)
  | 0, _ => Reading.tooLong
  | limit + 1, reversed => do
    let (line, isWhole) ← documentLine a.isQuoted Reading.stepLimit []
    let line := if a.isIndented then line.dropWhile (· = '\t') else line
    if line = a.mark.toList then return reversed.reverse
    else if isWhole then documentText a limit ('\n' :: (line.reverse ++ reversed))
    else return (line.reverse ++ reversed).reverse

def readDocuments (n : Nested) : Reading Unit := do
  let awaited := (← get).awaited
  modify ({ · with awaited := [] })
  for a in awaited do
    let text ← documentText a Reading.stepLimit []
    let word ←
      if a.isQuoted then pure [.text (.ofList text)]
      else
        let r ← get
        set { r with passages := [⟨text, none, false⟩] }
        let word ← n.zone .document
        modify fun s ↦ { s with passages := r.passages, line := r.line }
        pure word
    modify fun r ↦ { r with documents := (a.number, word) :: r.documents }

end Documents

def skipNewlines (n : Nested) : Nat → Token → Reading Token
  | 0, _ => Reading.tooLong
  | limit + 1, t =>
    match t with
    | .newline => do
      readDocuments n
      skipNewlines n limit (← rawToken n)
    | t => return t

/-- Puts the value of an alias in the place of its name. -/
def substitute (name value : String) : Reading Unit := modify fun r ↦
  let endsInBlank := value.toList.getLast?.any fun c ↦ c = ' ' || c = '\t'
  { r with passages := ⟨value.toList, some name, endsInBlank⟩ :: r.passages }

def aliasValue? (name : String) : Reading (Option String) := do
  let r ← get
  if r.passages.any (·.name == some name) then return none
  return r.aliases.lookup name

def readToken (n : Nested) : Nat → Reading Token
  | 0 => Reading.tooLong
  | limit + 1 => do
    let asked := (← get).checks
    let t ← rawToken n
    let t ← if asked.newlines then skipNewlines n Reading.stepLimit t else pure t
    let checks := asked.or (← get).checks
    check .none
    match t.plainText? with
    | none => return t
    | some text =>
      if checks.keywords && Token.keywords.contains text then
        modify ({ · with token := .keyword text })
        return .keyword text
      if checks.aliases then
        if let some value ← aliasValue? text then
          substitute text value
          check checks
          return ← readToken n limit
      return t

def token (n : Nested) : Reading Token := readToken n Reading.stepLimit

def unexpected {α : Type} : Reading α := do
  throw ((← get).token.description ++ " unexpected")

def expecting {α : Type} (wanted : String) : Reading α := do
  throw ((← get).token.description ++ " unexpected (expecting " ++ wanted ++ ")")

def isKeyword (t : Token) (text : String) : Bool :=
  match t with
  | .keyword k => k == text
  | _ => false

def isOperator (t : Token) (text : String) : Bool :=
  match t with
  | .operator o => o == text
  | _ => false

def expectKeyword (n : Nested) (text : String) : Reading Unit := do
  if !isKeyword (← token n) text then expecting (Token.mark text)

def expectOperator (n : Nested) (text : String) : Reading Unit := do
  if !isOperator (← token n) text then expecting (Token.mark text)

end Tokens

section Redirections

def bareText : Nat → Word → String
  | 0, _ => ""
  | depth + 1, w =>
    String.join <| w.map fun
      | .text t => t
      | .escaped c => .singleton c
      | .quoted ps => bareText depth ps
      | _ => ""

def hasQuotes (w : Word) : Bool :=
  w.any fun
    | .escaped _ | .quoted _ => true
    | _ => false

/-- The operand of an arrow. A document is awaited from here on. -/
def operand (n : Nested) (channel : Nat) (a : Arrow) : Reading Redirection := do
  check { Checks.none with isMark := a matches .document _ }
  match ← token n, a with
  | .word w, .file how isForced => return .file channel how isForced w
  | .word w, .duplicate => return .duplicate channel w
  | .word w, .document isIndented =>
    let r ← get
    let number := r.nextDocument
    let new : Awaited := ⟨number, bareText 2 w, isIndented, hasQuotes w⟩
    set { r with awaited := r.awaited ++ [new], nextDocument := number + 1 }
    return .document channel number
  | _, _ => unexpected

def redirections (n : Nested) : Nat → List Redirection → Reading (List Redirection)
  | 0, _ => Reading.tooLong
  | limit + 1, reversed => do
    match ← token n with
    | .arrow channel a =>
      let r ← operand n channel a
      redirections n limit (r :: reversed)
    | _ =>
      putBack
      return reversed.reverse

end Redirections

section Simple

def specialNames : List String :=
  [".", ":", "break", "continue", "eval", "exec", "exit", "export", "local", "readonly", "return",
   "set", "shift", "times", "trap", "unset"]

def functionName? (w : Word) : Option String :=
  match w with
  | [.text t] => if isName t && !specialNames.contains t then some t else none
  | _ => none

structure Draft where
  assignments : List Word
  words : List Word
  redirections : List Redirection

def Draft.finish (d : Draft) (line : Nat) : Command :=
  .simple line d.assignments.reverse d.words.reverse d.redirections.reverse

/-- A simple command or the definition of a function. The words before the first that assigns
nothing may be aliases. -/
def simple (n : Nested) (line : Nat) : Nat → Draft → Reading Command
  | 0, _ => Reading.tooLong
  | limit + 1, d => do
    check { Checks.none with aliases := d.words.isEmpty }
    match ← token n with
    | .word w =>
      if d.words.isEmpty && isAssignment w then
        simple n line limit { d with assignments := w :: d.assignments }
      else simple n line limit { d with words := w :: d.words }
    | .arrow channel a =>
      let r ← operand n channel a
      simple n line limit { d with redirections := r :: d.redirections }
    | t =>
      match isOperator t "(", d.words, d.assignments.isEmpty && d.redirections.isEmpty with
      | true, [w], true =>
        expectOperator n ")"
        match functionName? w with
        | none => throw "Bad function name"
        | some name =>
          check .laterCommand
          let line := (← get).line
          return .definition line name (← n.part .command)
      | _, _, _ =>
        putBack
        return d.finish line

end Simple

section Compound

def conditional (n : Nested) : Nat → Command → Reading Command
  | 0, _ => Reading.tooLong
  | limit + 1, test => do
    expectKeyword n "then"
    let whenTrue ← n.part .body
    match ← token n with
    | .keyword "elif" =>
      let test' ← n.part .body
      return .conditional test whenTrue (← conditional n limit test')
    | .keyword "else" => return .conditional test whenTrue (← n.part .body)
    | _ =>
      putBack
      return .conditional test whenTrue .nothing

def words (n : Nested) : Nat → List Word → Reading (List Word)
  | 0, _ => Reading.tooLong
  | limit + 1, reversed => do
    match ← token n with
    | .word w => words n limit (w :: reversed)
    | _ => return reversed.reverse

def allArguments : Word := [.quoted [.parameter "@" .value []]]

def each (n : Nested) (line : Nat) : Reading Command := do
  let name ←
    match (← token n).plainText? with
    | some name => if isName name then pure name else throw "Bad for loop variable"
    | none => throw "Bad for loop variable"
  check .laterCommand
  let list ←
    match ← token n with
    | .keyword "in" =>
      let ws ← words n Reading.stepLimit []
      match (← get).token with
      | .newline | .operator ";" => pure ws
      | _ => unexpected
    | t =>
      if !isOperator t ";" then putBack
      pure [allArguments]
  check .laterCommand
  expectKeyword n "do"
  return .each line name list (← n.part .body)

/-- A word that a pattern can be; a keyword is one here. -/
def pattern? : Token → Option Word
  | .word w => some w
  | .keyword k => some [.text k]
  | _ => none

def patterns (n : Nested) : Nat → Token → List Word → Reading (List Word)
  | 0, _, _ => Reading.tooLong
  | limit + 1, t, reversed => do
    let reversed := (pattern? t).elim reversed (· :: reversed)
    match ← token n with
    | .operator "|" => patterns n limit (← token n) reversed
    | .operator ")" => return reversed.reverse
    | _ => expecting (Token.mark ")")

def branches (n : Nested) : Nat → List (List Word × Command) → Reading (List (List Word × Command))
  | 0, _ => Reading.tooLong
  | limit + 1, reversed => do
    check { Checks.none with newlines := true, keywords := true }
    match ← token n with
    | .keyword "esac" => return reversed.reverse
    | t =>
      let t ← if isOperator t "(" then token n else pure t
      let ps ← patterns n Reading.stepLimit t []
      let body ← n.part .script
      let reversed := (ps, body) :: reversed
      check { Checks.none with newlines := true, keywords := true }
      match ← token n with
      | .keyword "esac" => return reversed.reverse
      | .operator ";;" => branches n limit reversed
      | _ => expecting (Token.mark ";;")

def choice (n : Nested) (line : Nat) : Reading Command := do
  match ← token n with
  | .word subject =>
    check .laterCommand
    expectKeyword n "in"
    return .choice line subject (← branches n Reading.stepLimit [])
  | _ => expecting "word"

def withRedirections (n : Nested) (line : Nat) (c : Command) : Reading Command := do
  check .command
  match ← redirections n Reading.stepLimit [], c with
  | [], c => return c
  | rs, .subshell line c _ => return .subshell line c rs
  | rs, c => return .redirected line c rs

def command (n : Nested) : Reading Command := do
  let line := (← get).line
  let whole (c : Reading Command) (finish : Reading Unit) : Reading Command := do
    let c ← c
    finish
    withRedirections n line c
  match ← token n with
  | .keyword "if" =>
    whole (do conditional n Reading.stepLimit (← n.part .body)) (expectKeyword n "fi")
  | .keyword "while" => whole (repeated false) (expectKeyword n "done")
  | .keyword "until" => whole (repeated true) (expectKeyword n "done")
  | .keyword "for" => whole (each n line) (expectKeyword n "done")
  | .keyword "case" => whole (choice n line) (pure ())
  | .keyword "\x7b" => whole (n.part .body) (expectKeyword n "\x7d")
  | .operator "(" => whole (do return .subshell line (← n.part .body) []) (expectOperator n ")")
  | .word _ | .arrow _ _ =>
    putBack
    simple n (← get).line Reading.stepLimit ⟨[], [], []⟩
  | _ => unexpected
where
  repeated (isUntil : Bool) : Reading Command := do
    let test ← n.part .body
    expectKeyword n "do"
    return .loop isUntil test (← n.part .body)

end Compound

section Lists

def piped (n : Nested) : Nat → List Command → Reading (List Command)
  | 0, _ => Reading.tooLong
  | limit + 1, reversed => do
    match ← token n with
    | .operator "|" =>
      check .laterCommand
      let c ← command n
      piped n limit (c :: reversed)
    | _ =>
      putBack
      return reversed.reverse

def pipeline (n : Nested) : Reading Command := do
  let isNegated := isKeyword (← token n) "!"
  if isNegated then check .command else putBack
  let c ← command n
  let whole :=
    match ← piped n Reading.stepLimit [c] with
    | [c] => c
    | cs => .pipeline cs
  return if isNegated then .negation whole else whole

def andOr (n : Nested) : Nat → Command → Reading Command
  | 0, _ => Reading.tooLong
  | limit + 1, first => do
    match ← token n with
    | .operator "&&" =>
      check .laterCommand
      andOr n limit (.both first (← pipeline n))
    | .operator "||" =>
      check .laterCommand
      andOr n limit (.either first (← pipeline n))
    | _ =>
      putBack
      return first

def inBackground (line : Nat) : Command → Command
  | .redirected line c rs => .background line c rs
  | c => .background line c []

def sequence : List Command → Command
  | [] => .nothing
  | [c] => c
  | cs => .sequence cs

/-- Commands up to the end of a line, or up to a token that ends a list. `mayEnd` says whether that
token may come now, and `reversed` holds the commands so far. -/
def commands (n : Nested) (isLine : Bool) :
    Nat → Bool → List Command → Reading (List Command)
  | 0, _, _ => Reading.tooLong
  | limit + 1, mayEnd, reversed => do
    check { Checks.command with newlines := !isLine }
    let t ← token n
    match t with
    | .newline =>
      readDocuments n
      return reversed.reverse
    | .finish =>
      readDocuments n
      putBack
      return reversed.reverse
    | _ =>
      putBack
      if mayEnd && !isLine && t.endsList then return reversed.reverse
      let c ← andOr n Reading.stepLimit (← pipeline n)
      let line := (← get).line
      match ← token n with
      | .operator "&" => commands n isLine limit true (inBackground line c :: reversed)
      | .operator ";" => commands n isLine limit true (c :: reversed)
      | .newline | .finish =>
        putBack
        commands n isLine limit true (c :: reversed)
      | _ =>
        if isLine then unexpected
        else
          putBack
          return (c :: reversed).reverse

end Lists

def depthLimit : Nat := 2000

def part (n : Nested) : Part → Reading Command
  | .script => return sequence (← commands n false Reading.stepLimit true [])
  | .enclosed => do
    let cs ← commands n false Reading.stepLimit true []
    expectOperator n ")"
    return sequence cs
  | .body => return sequence (← commands n false Reading.stepLimit false [])
  | .command => command n

def nested : Nat → Nested
  | 0 => ⟨fun _ ↦ Reading.tooLong, fun _ ↦ Reading.tooLong⟩
  | depth + 1 =>
    { zone := fun z r ↦ Lexer.zone (nested depth) z r
      part := fun p r ↦ part (nested depth) p r }

end Parser

inductive NextLine where
  | commands (command : Command)
  | finish
  | broken (trouble : String)

/-- Reads the next line of a script, and more of them if a command goes on there. -/
def Reader.nextLine (r : Reader) : NextLine × Reader :=
  let n := Parser.nested Parser.depthLimit
  let start := { r with isPutBack := false, checks := .none, awaited := [] }
  match (Parser.commands n true Reading.stepLimit false []).run start with
  | (.error trouble, r) => (.broken trouble, r)
  | (.ok [], r) => (if r.token matches .finish then .finish else .commands .nothing, r)
  | (.ok cs, r) => (.commands (Parser.sequence cs), r)

end BootMedia.Shell
