import BootMedia.Shell.Arithmetic
import BootMedia.Shell.Child
import BootMedia.Shell.FileName

namespace BootMedia.Shell

structure Filling.Way where
  splits : Bool
  isQuoted : Bool
  isOperand : Bool
  hasTilde : Bool
  /-- The word assigns: tildes can stand behind its equals sign, and behind colons. -/
  assigns : Bool

namespace Filling.Way

def single : Way := ⟨false, false, false, true, false⟩

def many : Way := { single with splits := true }

def assignment : Way := ⟨false, false, false, false, true⟩

def document : Way := ⟨false, true, false, false, false⟩

end Filling.Way

abbrev Filling := StateT Filled Act

namespace Filling

section Basic

def glyph (isQuoted : Bool) (c : Char) : Glyph := if isQuoted then .literal c else .plain c

def put (isQuoted : Bool) (text : List Char) : Filling Unit :=
  modify (·.add (text.map (glyph isQuoted)))

def place : Filling Nat := return (← get).glyphs.size

def region (start : Nat) (isBetween : Bool) : Filling Unit := modify (·.mark start isBetween)

end Basic

section Tilde

def home (user : String) : Act (Option String) :=
  if user.isEmpty then Act.valueOf? "HOME"
  else return if user = "root" then some "/root" else none

/-- What a text stands for that can begin with a tilde: a home directory, and the rest behind it.
`isWhole` says that the word ends with the text. -/
def tilde (assigns isWhole : Bool) (text : List Char) : Act (Option (String × List Char)) := do
  match text with
  | '~' :: cs =>
    let isEnd (c : Char) : Bool := c = '/' || (assigns && c = ':')
    let user := cs.takeWhile (!isEnd ·)
    let rest := cs.dropWhile (!isEnd ·)
    if rest.isEmpty && !isWhole then return none
    return (← home (.ofList user)).map (·, rest)
  | _ => return none

def untilTilde (isValue : Bool) : List Char → List Char × List Char
  | [] => ([], [])
  | c :: cs =>
    if c = ':' || (c = '=' && !isValue) then ([c], cs)
    else
      let (before, rest) := untilTilde isValue cs
      (c :: before, rest)

def putPlain (w : Way) (text : List Char) : Filling Unit := do
  let start ← place
  put w.isQuoted text
  if w.isOperand && !w.isQuoted && !text.isEmpty then region start false

def putText (w : Way) (isWhole : Bool) : Nat → Bool → Bool → List Char → Filling Unit
  | 0, _, _, text => putPlain w text
  | limit + 1, canBegin, isValue, text => do
    let text ←
      if canBegin then
        match ← tilde w.assigns isWhole text with
        | some (home, rest) =>
          put true home.toList
          pure rest
        | none => pure text
      else pure text
    if w.assigns then
      let (before, rest) := untilTilde isValue text
      putPlain w before
      if !rest.isEmpty then putText w isWhole limit true (isValue || before.contains '=') rest
    else putPlain w text

end Tilde

section Parameters

/-- What stands between arguments that are joined: nothing that can be seen, where they stay
apart. -/
def between (w : Way) (name : String) : Act (Option Char) := do
  let separators ← Act.valueOf? "IFS"
  if w.splits && (name = "@" || !w.isQuoted) then
    return if separators.isSome || w.isQuoted then some argumentEnd else some ' '
  else return separators.elim (some ' ') (·.toList.head?)

def joined (between : Option Char) : List String → List Char
  | [] => []
  | [a] => a.toList
  | a :: as => a.toList ++ between.toList ++ joined between as

/-- The value of a parameter as it is put in. What keeps arguments apart never stands for itself. -/
def value? (w : Way) (name : String) : Act (Option (List Glyph)) := do
  let s ← get
  let whole (text : String) : Option (List Glyph) := some (text.toList.map (glyph w.isQuoted))
  match name with
  | "@" | "*" =>
    let cs := joined (← between w name) s.arguments
    return some (cs.map fun c ↦ if c = argumentEnd then .plain c else glyph w.isQuoted c)
  | "#" => return whole (toString s.arguments.length)
  | "?" => return whole (toString s.status)
  | "$" => return whole (toString s.shell)
  | "!" => return s.lastJob.bind fun n ↦ whole (toString n)
  | "-" => return whole s.options.letters
  | _ =>
    match numeral? name with
    | some 0 => return whole s.name
    | some (n + 1) => return s.arguments[n]?.bind whole
    | none => return (s.bindings.value? name).bind whole

def missing {α : Type} (name : String) (orEmpty : Bool) (text : String) : Act α :=
  if !text.isEmpty then Act.fail (name ++ ": " ++ text)
  else
    Act.fail (name ++ ": parameter not set" ++ (if orEmpty then " or null" else ""))

def needed (name : String) (v : Option (List Glyph)) : Act (List Glyph) := do
  match v with
  | some gs => return gs
  | none =>
    if (← get).options.needsValues then missing name false ""
    return []

def trimmed (side : Side) (longest : Bool) (pattern : List Glyph) (value : List Glyph) :
    List Glyph :=
  let p := Glyph.pattern pattern
  let text := value.filterMap Glyph.char?
  match side with
  | .front => value.drop ((p.frontLength? longest text).getD 0)
  | .back => value.take ((p.backLength? longest text).getD value.length)

def putValue (w : Way) (name : String) (gs : List Glyph) : Filling Unit := do
  let start ← place
  modify (·.add gs)
  if !w.isQuoted then region start false
  else if name = "@" && !(← (get : Act State)).arguments.isEmpty then region start true

def isMissing (orEmpty : Bool) : Option (List Glyph) → Bool
  | some gs => orEmpty && gs.isEmpty
  | none => true

end Parameters

def calculate (text : String) : Act String := do
  let trouble {α : Type} (what : String) : Act α :=
    Act.fail ("arithmetic expression: " ++ what ++ ": \"" ++ text ++ "\"")
  match Arithmetic.parse text with
  | .error what => trouble what
  | .ok e =>
    let store : Arithmetic.Store Act :=
      { get := fun name ↦ do
          let v := (← Act.valueOf? name).getD ""
          match Number.anyBase? v with
          | some n => return .ofInt n
          | none => Act.fail ("Illegal number: " ++ v)
        set := fun name n ↦ Act.assign name (toString n.toInt)
        fail := trouble }
    return toString (← Arithmetic.eval store e).toInt

variable (inner : Inner)

def apart (f : Filling Unit) : Filling Filled := do
  let (_, filled) ← (f.run .empty : Act (Unit × Filled))
  return filled

mutual

/-- Fills in one piece. `isFirst` and `isLast` say where in the word it stands. -/
def piece (w : Way) (isFirst isLast : Bool) : Piece → Filling Unit
  | .text t => putText w isLast (t.length + 1) (isFirst && w.hasTilde) false t.toList
  | .escaped c => put true [c]
  | .quoted [.parameter "@" .value operand] =>
    piece { w with isQuoted := true } isFirst isLast (.parameter "@" .value operand)
  | .quoted ps => do
    modify (·.add [.mark])
    pieces { w with isQuoted := true, hasTilde := false } true ps
    modify (·.add [.mark])
  | .output c => do
    let start ← place
    put w.isQuoted (← (outputOf inner c : Act String)).toList
    if !w.isQuoted then region start false
  | .arithmetic ps => do
    let filled ← apart (pieces { Way.single with hasTilde := false } true ps)
    let start ← place
    put w.isQuoted (← (calculate filled.text : Act String)).toList
    if !w.isQuoted then region start false
  | .parameter name use operand => do
    let v ← (value? w name : Act _)
    let here : Filling Unit := pieces { w with isOperand := true, hasTilde := true } true operand
    let single : Filling Filled := apart (pieces .single true operand)
    match use with
    | .value => putValue w name (← (needed name v : Act _))
    | .length =>
      let n := (← (needed name v : Act _)).length
      putValue w name ((toString n).toList.map (glyph w.isQuoted))
    | .fallback orEmpty => if isMissing orEmpty v then here else putValue w name (v.getD [])
    | .substitute orEmpty => if isMissing orEmpty v then pure () else here
    | .assigned orEmpty =>
      if isMissing orEmpty v then
        let filled ← single
        if !isName name then (Act.fail (name ++ ": bad variable name") : Act Unit)
        (Act.assign name filled.text : Act Unit)
        putValue w name ((← (value? w name : Act _)).getD [])
      else putValue w name (v.getD [])
    | .required orEmpty =>
      if isMissing orEmpty v then
        let filled ← single
        (missing name orEmpty filled.text : Act Unit)
      else putValue w name (v.getD [])
    | .trimmed side longest =>
      let gs ← (needed name v : Act _)
      if v.isSome then
        let pattern ← single
        putValue w name (trimmed side longest pattern.glyphs.toList gs)
    | .unknown => (Act.fail "Bad substitution" : Act Unit)

def pieces (w : Way) (isFirst : Bool) : List Piece → Filling Unit
  | [] => pure ()
  | p :: ps => do
    piece w isFirst ps.isEmpty p
    pieces w false ps

end

end Filling

section Words

variable (inner : Inner)

def fill (w : Filling.Way) (word : Word) : Act Filled := do
  let (_, filled) ← (Filling.pieces inner w true word).run .empty
  return filled

def expandSingle (w : Filling.Way) (word : Word) : Act String := return (← fill inner w word).text

def expandWord (word : Word) : Act (List String) := do
  let filled ← fill inner .many word
  let s ← get
  let separators := (s.bindings.value? "IFS").getD defaultSeparators
  let fields := filled.fields separators none
  if s.options.keepsPatterns then return fields.map Glyph.text
  else return fields.flatMap (FileName.ofField s.world.files)

def expandWords (words : List Word) : Act (List String) :=
  return (← words.mapM (expandWord inner)).flatten

def expandPattern (word : Word) : Act Pattern :=
  return Glyph.pattern (← fill inner .single word).glyphs.toList

end Words

end BootMedia.Shell
