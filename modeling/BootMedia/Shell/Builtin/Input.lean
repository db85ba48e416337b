import BootMedia.Shell.Builtin.Basic
import BootMedia.Shell.Expansion

namespace BootMedia.Shell

namespace Builtin

section Lines

/-- The next line of a stream as glyphs to be cut into fields. A backslash keeps the next character
from ending a field, and a newline behind it from ending the line, unless `isRaw` is set. Answers
whether the line was ended by a newline, and the number of bytes taken. -/
def lineGlyphs (isRaw : Bool) : List Char → Filled → Nat → Filled × Bool × Nat
  | [], f, n => (f, false, n)
  | '\n' :: _, f, n => (f, true, n + 1)
  | '\\' :: cs, f, n =>
    if isRaw then lineGlyphs isRaw cs (plain f '\\') (n + 1)
    else
      match cs with
      | [] => (f, false, n + 1)
      | '\n' :: rest => lineGlyphs isRaw rest f (n + 2)
      | c :: rest => lineGlyphs isRaw rest (f.add [.literal c]) (n + 2)
  | c :: cs, f, n => lineGlyphs isRaw cs (if c = '\x00' then f else plain f c) (n + 1)
where
  plain (f : Filled) (c : Char) : Filled :=
    let start := f.glyphs.size
    let f := f.add [.plain c]
    match f.regions with
    | r :: rs =>
      if r.stop = start then { f with regions := { r with stop := start + 1 } :: rs }
      else f.mark start false
    | [] => f.mark start false

def readLine (words : List String) : Act Reply := do
  let (ls, names) ← letters "r" "pt" words
  if names.isEmpty then Act.fail "arg count"
  let isRaw := ls.any (·.1 = 'r')
  let s ← get
  let (filled, isWhole) ←
    match s.channels.lookup 0 with
    | none => pure (Filled.empty, false)
    | some stream =>
      match s.world.readable stream with
      | .error _ => pure (Filled.empty, false)
      | .ok (bytes, i) =>
        let text := (Text.Octets.read (bytes.extract i bytes.size)).toList
        let (filled, isWhole, n) := lineGlyphs isRaw text .empty 0
        set { s with world := s.world.advance stream n }
        pure (filled, isWhole)
  let separators := (← Act.valueOf? "IFS").getD defaultSeparators
  let fields := filled.fields separators (some names.length)
  for (name, i) in names.zipIdx do
    Act.assignNamed name (Glyph.text (fields[i]?.getD []))
  return .silent (if isWhole then 0 else 1)

end Lines

section Options

inductive NextOption where
  | finish (index : Nat)
  | unknown (c : Char) (scan : Scan)
  | missing (c : Char) (scan : Scan)
  | found (c : Char) (argument : String) (scan : Scan)
deriving DecidableEq, Repr

def optionAt (known : List Char) (c : Char) (behind : List Char) (next offset : Nat)
    (arguments : List String) : NextOption :=
  let scan : Scan := ⟨next, some offset⟩
  match (if c = ':' then known.take 1 else known).dropWhile (· ≠ c) with
  | [] => .unknown c scan
  | _ :: mark =>
    if mark.head? ≠ some ':' || c = ':' then .found c "" scan
    else if !behind.isEmpty then .found c (.ofList behind) ⟨next, none⟩
    else
      match arguments with
      | [] => .missing c scan
      | a :: _ => .found c a ⟨next + 1, none⟩

def nextOption (known : List Char) (scan : Scan) (words : List String) : NextOption :=
  let inWord (index : Nat) : Option (List Char) :=
    match scan.offset with
    | none => none
    | some o => if index ≤ 1 then none else (words[index - 2]?).map (·.toList.drop o)
  match inWord scan.index with
  | some (c :: cs) =>
    optionAt known c cs scan.index (scan.offset.getD 0 + 1) (words.drop (scan.index - 1))
  | _ =>
    match (words.drop (scan.index - 1)).map String.toList with
    | ['-', '-'] :: _ => .finish (scan.index + 1)
    | ('-' :: c :: cs) :: _ =>
      optionAt known c cs (scan.index + 1) 2 (words.drop scan.index)
    | _ => .finish scan.index

def optionUsage : String := "Usage: getopts optstring var [arg...]"

def readOption (words : List String) : Act Reply := do
  match words with
  | optionText :: name :: others =>
    let s ← get
    let words := if others.isEmpty then s.arguments else others
    let scan := if words.length + 1 < s.scan.index then .start else s.scan
    let isQuiet := optionText.toList.head? = some ':'
    let unsetArgument : Act Unit :=
      modify fun s ↦ { s with bindings := s.bindings.unset "OPTARG" }
    let report (c : Char) (text : String) (quiet : String) : Act String := do
      if isQuiet then
        Act.assign "OPTARG" (.singleton c)
        return quiet
      else
        Act.say 2 (text ++ "\n")
        unsetArgument
        return "?"
    let next := nextOption optionText.toList scan words
    let (letter, scan) ←
      match next with
      | .finish index => pure ("?", ⟨index, none⟩)
      | .unknown c scan => pure (← report c ("Illegal option -" ++ .singleton c) "?", scan)
      | .missing c scan =>
        pure (← report c ("No arg for -" ++ .singleton c ++ " option") ":", scan)
      | .found c argument scan =>
        Act.assign "OPTARG" argument
        pure (String.singleton c, scan)
    Act.guardVariable "OPTIND"
    modify fun s ↦ { s with bindings := s.bindings.set "OPTIND" (toString scan.index) }
    Act.assignNamed name letter
    modify ({ · with scan := scan })
    return .silent (if next matches .finish _ then 1 else 0)
  | _ => Act.fail optionUsage

end Options

end Builtin

end BootMedia.Shell
