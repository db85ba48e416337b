import BootMedia.Shell.Pattern

namespace BootMedia.Shell

/-- A character that can have a meaning in a pattern or is literal, or a quotation mark, which
stands for nothing but keeps an empty field. -/
inductive Glyph where
  | plain (c : Char)
  | literal (c : Char)
  /-- A quotation mark, which stands for nothing but keeps an empty field. -/
  | mark
deriving DecidableEq, Repr

namespace Glyph

def char? : Glyph → Option Char
  | plain c | literal c => some c
  | mark => none

def text (gs : List Glyph) : String := .ofList (gs.filterMap char?)

def patternChars : Bool → List Glyph → List Char
  | _, [] => []
  | isEscaped, .plain c :: gs => c :: patternChars (c = '\\' && !isEscaped) gs
  | isEscaped, .literal c :: gs =>
    if isEscaped then c :: patternChars false gs else '\\' :: c :: patternChars false gs
  | _, .mark :: gs => patternChars false gs

def pattern (gs : List Glyph) : Pattern := .ofChars (patternChars false gs)

end Glyph

structure Region where
  start : Nat
  stop : Nat
  isBetween : Bool
deriving DecidableEq, Repr

structure Filled where
  glyphs : Array Glyph
  regions : List Region

namespace Filled

def empty : Filled := ⟨#[], []⟩

def add (f : Filled) (gs : List Glyph) : Filled := { f with glyphs := f.glyphs.appendList gs }

def mark (f : Filled) (start : Nat) (isBetween : Bool) : Filled :=
  { f with regions := ⟨start, f.glyphs.size, isBetween⟩ :: f.regions }

def text (f : Filled) : String := Glyph.text f.glyphs.toList

end Filled

def argumentEnd : Char := '\x00'

/-- Cutting a word into fields, one glyph after the other. -/
structure Cutter where
  start : Nat
  blanks : Option Nat
  isAfterBlank : Bool
  left : Option Nat
  fields : List (Nat × Nat)

namespace Cutter

def isBlank (c : Char) : Bool := c == ' ' || c == '\t' || c == '\n' || c == argumentEnd

/-- Takes the glyph at place `q`. In the last field that can be begun, blanks are noted only. -/
def step (separators : String) (isBetween isAfterArguments : Bool) (c : Cutter) (q : Nat)
    (g : Glyph) : Cutter :=
  let isSeparator := g.char?.any fun d ↦
    d == argumentEnd || (!isBetween && separators.toList.contains d)
  let isBlank := isSeparator && g.char?.any isBlank
  if c.left = some 0 then
    if isBlank then { c with blanks := some (c.blanks.getD q) }
    else if isSeparator && c.isAfterBlank then { c with isAfterBlank := false }
    else { c with blanks := none, isAfterBlank := false }
  else if c.isAfterBlank then
    { c with start := if isSeparator then q + 1 else q, isAfterBlank := isBlank }
  else if isSeparator then
    let isAfterBlank := isBlank && !isBetween && !isAfterArguments
    if q = c.start && isAfterBlank then { c with start := q + 1 }
    else if c.left = some 1 then
      { c with blanks := some q, isAfterBlank := isAfterBlank, left := some 0 }
    else
      { c with
        start := q + 1
        isAfterBlank := isAfterBlank
        left := c.left.map (· - 1)
        fields := (c.start, q) :: c.fields }
  else c

def region (separators : String) (glyphs : Array Glyph) (isAfterArguments : Bool) (c : Cutter)
    (r : Region) : Cutter :=
  (List.range (r.stop - r.start)).foldl
    (fun c k ↦
      let q := r.start + k
      step separators r.isBetween isAfterArguments c q (glyphs[q]?.getD .mark))
    { c with isAfterBlank := false }

def regions (separators : String) (glyphs : Array Glyph) :
    Bool → List Region → Cutter → Bool × Cutter
  | isAfterArguments, [], c => (isAfterArguments, c)
  | isAfterArguments, r :: rs, c =>
    regions separators glyphs r.isBetween rs (region separators glyphs isAfterArguments c r)

end Cutter

def Filled.fields (f : Filled) (separators : String) (limit : Option Nat) : List (List Glyph) :=
  let (isBetween, c) :=
    Cutter.regions separators f.glyphs false f.regions.reverse ⟨0, none, false, limit, []⟩
  let glyphs (field : Nat × Nat) := (f.glyphs.extract field.1 field.2).toList
  let stop := c.blanks.getD f.glyphs.size
  let last := if isBetween || c.start < stop then [glyphs (c.start, stop)] else []
  (c.fields.reverse.map glyphs) ++ last

end BootMedia.Shell
