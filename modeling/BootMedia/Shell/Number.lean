namespace BootMedia.Shell.Number

def digit? (c : Char) : Option Nat :=
  if '0' ≤ c ∧ c ≤ '9' then some (c.toNat - '0'.toNat)
  else if 'a' ≤ c ∧ c ≤ 'f' then some (c.toNat - 'a'.toNat + 10)
  else if 'A' ≤ c ∧ c ≤ 'F' then some (c.toNat - 'A'.toNat + 10)
  else none

def digits (base : Nat) (cs : List Char) : Option Nat × List Char :=
  let isDigit (c : Char) : Bool := (digit? c).any (· < base)
  let value := (cs.takeWhile isDigit).foldl (fun n c ↦ base * n + (digit? c).getD 0) 0
  (if cs.head?.any isDigit then some value else none, cs.dropWhile isDigit)

/-- A number whose base is told by how it begins: `0x` for sixteen and `0` for eight. -/
def magnitude (cs : List Char) : Option Nat × List Char :=
  match cs with
  | '0' :: x :: rest =>
    if x = 'x' ∨ x = 'X' then
      match digits 16 rest with
      | (some n, rest) => (some n, rest)
      | _ => (some 0, x :: rest)
    else digits 8 cs
  | _ => digits 10 cs

def isSpace (c : Char) : Bool := c == ' ' || ('\t' ≤ c && c ≤ '\r')

def largest : Int := 0x7fffffffffffffff

def largestUnsigned : Int := 0xffffffffffffffff

def nearest (n : Int) : Int := max (-largest - 1) (min largest n)

def signed (magnitude : List Char → Option Nat × List Char) (cs : List Char) :
    Option Int × List Char :=
  let value (sign : Int) (cs : List Char) : Option Int × List Char :=
    let (n, rest) := magnitude cs
    (n.map (sign * ·), rest)
  match cs.dropWhile isSpace with
  | '-' :: rest => value (-1) rest
  | '+' :: rest => value 1 rest
  | rest => value 1 rest

def whole? (text : String) : Option Int :=
  match signed (digits 10) text.toList with
  | (some n, rest) => if n = nearest n ∧ rest.all isSpace then some n else none
  | (none, _) => none

/-- The number that a text is in any base. A blank text counts as zero. -/
def anyBase? (text : String) : Option Int :=
  match signed magnitude text.toList with
  | (some n, rest) => if n = nearest n ∧ rest.all isSpace then some n else none
  | (none, _) => if text.toList.all isSpace then some 0 else none

def countEnd : Int := 0x80000000

def count? (text : String) : Option Nat :=
  match whole? text with
  | some n => if 0 ≤ n ∧ n < countEnd then some n.toNat else none
  | none => none

end BootMedia.Shell.Number
