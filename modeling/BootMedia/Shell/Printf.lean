import BootMedia.Shell.Real
import BootMedia.Text.Octets

namespace BootMedia.Shell.Printf

section Escapes

def letter? : Char → Option Char
  | 'a' => some '\x07'
  | 'b' => some '\x08'
  | 'f' => some '\x0c'
  | 'n' => some '\n'
  | 'r' => some '\r'
  | 't' => some '\t'
  | 'v' => some '\x0b'
  | '\\' => some '\\'
  | _ => none

def isOctal (c : Char) : Bool := '0' ≤ c && c ≤ '7'

def octalByte (cs : List Char) : Char × List Char :=
  let digits := (cs.take 3).takeWhile isOctal
  let value := digits.foldl (fun n c ↦ 8 * n + (c.toNat - '0'.toNat)) 0
  (Text.Octets.single (.ofNat value), cs.drop digits.length)

def escape (cs : List Char) : Char × List Char :=
  match cs with
  | [] => ('\\', [])
  | c :: rest =>
    match letter? c with
    | some e => (e, rest)
    | none => if isOctal c then octalByte cs else ('\\', cs)

/-- A text with its escapes read, in at most the given number of steps, and whether the letter `c`
has ended it. A zero may stand before the three digits of a byte. -/
def unescape : Nat → List Char → List Char × Bool
  | 0, _ | _, [] => ([], false)
  | _, '\\' :: 'c' :: _ => ([], true)
  | limit + 1, '\\' :: '0' :: d :: cs =>
    let (c, rest) := escape (if isOctal d then d :: cs else '0' :: d :: cs)
    let (text, isCut) := unescape limit rest
    (c :: text, isCut)
  | limit + 1, '\\' :: cs =>
    let (c, rest) := escape cs
    let (text, isCut) := unescape limit rest
    (c :: text, isCut)
  | limit + 1, c :: cs =>
    let (text, isCut) := unescape limit cs
    (c :: text, isCut)

def unescaped (text : String) : String × Bool :=
  let (cs, isCut) := unescape text.length text.toList
  (.ofList cs, isCut)

end Escapes

inductive Measure where
  | fixed (n : Nat)
  | argument
deriving DecidableEq, Repr

structure Directive where
  flags : List Char
  width : Measure
  precision : Option Measure
  conversion : Char
deriving DecidableEq, Repr

inductive Segment where
  | char (c : Char)
  | directive (d : Directive)
deriving DecidableEq, Repr

/-- A format as far as it is understood, and what is wrong behind that. -/
structure Format where
  segments : List Segment
  trouble : Option String
deriving DecidableEq, Repr

namespace Format

def add (s : Segment) (f : Format) : Format := { f with segments := s :: f.segments }

def measure (cs : List Char) : Measure × List Char :=
  match cs with
  | '*' :: rest => (.argument, rest)
  | _ => (.fixed ((Number.digits 10 cs).1.getD 0), cs.dropWhile Char.isDigit)

def directive (cs : List Char) : (Char → Directive) × List Char :=
  let isFlag (c : Char) : Bool := "#-+ 0".toList.contains c
  let (width, rest) := measure (cs.dropWhile isFlag)
  let (precision, rest) : Option Measure × List Char :=
    match rest with
    | '.' :: rest =>
      let (p, rest) := measure rest
      (some p, rest)
    | _ => (none, rest)
  (fun c ↦ ⟨cs.takeWhile isFlag, width, precision, c⟩, rest)

def conversions : List Char := "diouxXeEfFgGcsb".toList

def read : Nat → List Char → Format
  | 0, _ | _, [] => ⟨[], none⟩
  | limit + 1, '%' :: '%' :: cs => (read limit cs).add (.char '%')
  | limit + 1, '%' :: cs =>
    match directive cs with
    | (_, []) => ⟨[], some "missing format character"⟩
    | (d, c :: rest) =>
      if conversions.contains c then (read limit rest).add (.directive (d c))
      else
        let written := cs.take (cs.length - rest.length)
        ⟨[], some ("%" ++ .ofList written ++ ": invalid directive")⟩
  | limit + 1, '\\' :: cs =>
    let (c, rest) := escape cs
    (read limit rest).add (.char c)
  | limit + 1, c :: cs => (read limit cs).add (.char c)

def ofText (text : String) : Format := read text.length text.toList

end Format

section Fields

structure Field where
  flags : List Char
  width : Nat
  isLeft : Bool
  precision : Option Nat

def Field.pad (f : Field) (text : String) : String :=
  let blanks := String.ofList (List.replicate (f.width - text.length) ' ')
  if f.isLeft then text ++ blanks else blanks ++ text

def Field.padNumber (f : Field) (sign digits : String) (hasZeros : Bool) : String :=
  if f.flags.contains '0' && !f.isLeft && hasZeros then
    let gap := f.width - (sign.length + digits.length)
    sign ++ .ofList (List.replicate gap '0') ++ digits
  else f.pad (sign ++ digits)

def Field.plusSign (f : Field) : String :=
  if f.flags.contains '+' then "+" else if f.flags.contains ' ' then " " else ""

def Field.digits (f : Field) (base n : Nat) : String :=
  if n = 0 && f.precision = some 0 then ""
  else
    let ds := Nat.toDigits base n
    .ofList (List.replicate (f.precision.getD 1 - ds.length) '0' ++ ds)

def Field.signed (f : Field) (n : Int) : String :=
  f.padNumber (if n < 0 then "-" else f.plusSign) (f.digits 10 n.natAbs) f.precision.isNone

def Field.unsigned (f : Field) (conversion : Char) (n : Nat) : String :=
  let isFull := f.flags.contains '#'
  match conversion with
  | 'o' =>
    let ds := f.digits 8 n
    let ds := if isFull && ds.toList.head? ≠ some '0' then "0" ++ ds else ds
    f.padNumber "" ds f.precision.isNone
  | 'x' => f.padNumber (if isFull && n ≠ 0 then "0x" else "") (f.digits 16 n) f.precision.isNone
  | 'X' =>
    let lead := if isFull && n ≠ 0 then "0X" else ""
    f.padNumber lead (f.digits 16 n).toUpper f.precision.isNone
  | _ => f.padNumber "" (f.digits 10 n) f.precision.isNone

def Field.real (f : Field) (conversion : Char) (x : Float) : String :=
  let sign := if Real.isNegative x && !x.isNaN then "-" else f.plusSign
  let text := Real.write conversion.toLower f.precision (f.flags.contains '#') x
  let text := if conversion.isUpper then text.toUpper else text
  f.padNumber sign text (!x.isNaN && !x.isInf)

end Fields

section Arguments

def trouble? (argument : String) (isNumber : Bool) (rest : List Char) : Option String :=
  if argument.isEmpty then none
  else if !isNumber then some (argument ++ ": expected numeric value")
  else if !rest.isEmpty then some (argument ++ ": not completely converted")
  else none

def rangeTrouble (argument : String) : String := argument ++ ": Numerical result out of range"

def integer (isSigned : Bool) (argument : String) : Int × Option String :=
  match argument.toList with
  | '"' :: rest | '\'' :: rest => ((rest.head?.map Char.toNat).getD 0, none)
  | cs =>
    let (n?, rest) := Number.signed Number.magnitude cs
    let n := n?.getD 0
    let nearest : Int :=
      if isSigned then Number.nearest n
      else if Number.largestUnsigned < n.natAbs then Number.largestUnsigned
      else n % (Number.largestUnsigned + 1)
    let isInRange := if isSigned then n = nearest else n.natAbs ≤ Number.largestUnsigned
    let outOfRange := if isInRange then none else some (rangeTrouble argument)
    (nearest, trouble? argument n?.isSome rest <|> outOfRange)

def real (argument : String) : Float × Option String :=
  match argument.toList with
  | '"' :: rest | '\'' :: rest => (.ofNat ((rest.head?.map Char.toNat).getD 0), none)
  | cs =>
    let (x?, rest) := Real.read cs
    (x?.getD 0, trouble? argument x?.isSome rest)

end Arguments

/-- What has been printed, what was wrong with arguments and the format, and whether printing ended
early: for that, or because a text asked for it. -/
structure Printed where
  text : String
  troubles : List String
  isBroken : Bool
  isCut : Bool
deriving DecidableEq, Repr

namespace Printed

def ofText (text : String) : Printed := ⟨text, [], false, false⟩

def append (p q : Printed) : Printed :=
  if p.isBroken || p.isCut then p
  else ⟨p.text ++ q.text, p.troubles ++ q.troubles, q.isBroken, q.isCut⟩

end Printed

/-- The measures of a directive, taken from the arguments where they are not fixed, with what was
wrong there and the arguments left. A negative width asks for blanks on the right. -/
def Directive.field (d : Directive) (arguments : List String) :
    Field × List String × List String :=
  let take (m : Measure) (arguments : List String) : Int × List String × List String :=
    match m with
    | .fixed n => (n, [], arguments)
    | .argument =>
      let (n, trouble) := integer true (arguments.headD "")
      (n, trouble.toList, arguments.tail)
  let (width, troubles, arguments) := take d.width arguments
  let (precision, more, arguments) :=
    match d.precision with
    | none => (none, [], arguments)
    | some m =>
      let (p, more, arguments) := take m arguments
      (if p < 0 then none else some p.toNat, more, arguments)
  (⟨d.flags, width.natAbs, width < 0 || d.flags.contains '-', precision⟩, troubles ++ more,
    arguments)

def fillField (f : Field) (conversion : Char) (argument : String) : Printed :=
  let cut (text : String) : String :=
    f.precision.elim text fun n ↦ .ofList (text.toList.take n)
  match conversion with
  | 's' => .ofText (f.pad (cut argument))
  | 'b' =>
    let (text, isCut) := unescaped argument
    { Printed.ofText (f.pad (cut text)) with isCut := isCut }
  | 'c' => .ofText (f.pad (.singleton (argument.toList.headD '\x00')))
  | 'd' | 'i' =>
    let (n, trouble) := integer true argument
    { Printed.ofText (f.signed n) with troubles := trouble.toList }
  | 'o' | 'u' | 'x' | 'X' =>
    let (n, trouble) := integer false argument
    { Printed.ofText (f.unsigned conversion n.toNat) with troubles := trouble.toList }
  | _ =>
    let (x, trouble) := real argument
    { Printed.ofText (f.real conversion x) with troubles := trouble.toList }

def fill : List Segment → List String → Printed × List String
  | [], arguments => (.ofText "", arguments)
  | .char c :: ss, arguments =>
    let (printed, rest) := fill ss arguments
    ((Printed.ofText (.singleton c)).append printed, rest)
  | .directive d :: ss, arguments =>
    let (f, troubles, arguments) := d.field arguments
    let first := fillField f d.conversion (arguments.headD "")
    let (printed, rest) := fill ss arguments.tail
    ({ first with troubles := troubles ++ first.troubles }.append printed, rest)

/-- The format used at most `limit` times, until no argument is left or one use takes none. A format
that is not understood to its end is used once. -/
def repeated (f : Format) : Nat → List String → Printed
  | 0, _ => .ofText ""
  | limit + 1, arguments =>
    let (printed, rest) := fill f.segments arguments
    match f.trouble with
    | some t => printed.append ⟨"", [t], true, false⟩
    | none =>
      if rest.isEmpty || rest.length = arguments.length then printed
      else printed.append (repeated f limit rest)

def print (format : String) (arguments : List String) : Printed :=
  repeated (.ofText format) (arguments.length + 1) arguments

end BootMedia.Shell.Printf
