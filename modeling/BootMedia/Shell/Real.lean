import BootMedia.Shell.Number

namespace BootMedia.Shell.Real

section Read

def exponent (cs : List Char) : Int × List Char :=
  match cs with
  | e :: rest =>
    if e = 'e' || e = 'E' then
      let (sign, unsigned) : Int × List Char :=
        match rest with
        | '-' :: rest => (-1, rest)
        | '+' :: rest => (1, rest)
        | _ => (1, rest)
      match Number.digits 10 unsigned with
      | (some n, rest) => (sign * n, rest)
      | (none, _) => (0, cs)
    else (0, cs)
  | [] => (0, [])

def scaled (digits : List Char) (fraction : Nat) (e : Int) : Float :=
  let n := (Number.digits 10 digits).1.getD 0
  let shift := e - fraction
  if shift < 0 then .ofScientific n true shift.natAbs else .ofScientific n false shift.natAbs

def magnitude (cs : List Char) : Option Float × List Char :=
  let lower := cs.map Char.toLower
  if "infinity".toList.isPrefixOf lower then (some (1.0 / 0.0), cs.drop 8)
  else if "inf".toList.isPrefixOf lower then (some (1.0 / 0.0), cs.drop 3)
  else if "nan".toList.isPrefixOf lower then (some (0.0 / 0.0), cs.drop 3)
  else
    let whole := cs.takeWhile Char.isDigit
    let (fraction, rest) :=
      match cs.drop whole.length with
      | '.' :: rest => (rest.takeWhile Char.isDigit, rest.dropWhile Char.isDigit)
      | rest => ([], rest)
    if whole.isEmpty && fraction.isEmpty then (none, cs)
    else
      let (e, rest) := exponent rest
      (some (scaled (whole ++ fraction) fraction.length e), rest)

def read (cs : List Char) : Option Float × List Char :=
  match cs.dropWhile Number.isSpace with
  | '-' :: rest =>
    match magnitude rest with
    | (some x, rest) => (some (-x), rest)
    | (none, _) => (none, cs)
  | '+' :: rest =>
    match magnitude rest with
    | (some x, rest) => (some x, rest)
    | (none, _) => (none, cs)
  | rest =>
    match magnitude rest with
    | (some x, rest) => (some x, rest)
    | (none, _) => (none, cs)

end Read

section Write

structure Ratio where
  num : Nat
  den : Nat

/-- The magnitude of a finite number: eleven bits of an exponent stand before fifty-two others. -/
def ratio (x : Float) : Ratio :=
  let bits := x.toBits.toNat
  let unit := 1 <<< 52
  let e := (bits >>> 52) % (1 <<< 11)
  let m := bits % unit
  if e = 0 then ⟨m, 1 <<< 1074⟩
  else if 1075 ≤ e then ⟨(unit + m) <<< (e - 1075), 1⟩
  else ⟨unit + m, 1 <<< (1075 - e)⟩

def isNegative (x : Float) : Bool := x.toBits >>> 63 = 1

def Ratio.round (r : Ratio) : Nat :=
  let n := r.num / r.den
  let twice := 2 * (r.num % r.den)
  if r.den < twice || (r.den = twice && n % 2 = 1) then n + 1 else n

def Ratio.shift (r : Ratio) (e : Int) : Ratio :=
  let power := Nat.pow 10 e.natAbs
  if e < 0 then ⟨r.num, r.den * power⟩ else ⟨r.num * power, r.den⟩

def smallExponent (r : Ratio) : Nat → Int
  | 0 => 0
  | limit + 1 => if r.den ≤ r.num then 0 else smallExponent ⟨10 * r.num, r.den⟩ limit - 1

def Ratio.exponent (r : Ratio) : Int :=
  if r.num = 0 then 0
  else if r.den ≤ r.num then ((toString (r.num / r.den)).length - 1 : Nat)
  else smallExponent r 400

def pointed (n places : Nat) (keepsPoint : Bool) : String :=
  let digits := (toString n).toList
  let digits := List.replicate (places + 1 - digits.length) '0' ++ digits
  let whole := digits.take (digits.length - places)
  let fraction := digits.drop (digits.length - places)
  .ofList (whole ++ (if places = 0 && !keepsPoint then [] else '.' :: fraction))

def stripped (text : String) : String :=
  if text.toList.contains '.' then
    let cs := text.toList.reverse.dropWhile (· = '0')
    .ofList (cs.dropWhile (· = '.')).reverse
  else text

def fixedPoint (r : Ratio) (places : Nat) (keepsPoint : Bool) : String :=
  pointed (r.shift places).round places keepsPoint

/-- The digits of a number with one before the point, and its exponent. -/
def leading (r : Ratio) (places : Nat) : Nat × Int :=
  let e := r.exponent
  let n := (r.shift (places - e)).round
  if places + 1 < (toString n).length then (n / 10, e + 1) else (n, e)

def exponentText (e : Int) : String :=
  let digits := toString e.natAbs
  "e" ++ (if e < 0 then "-" else "+") ++ (if digits.length < 2 then "0" else "") ++ digits

def scientific (r : Ratio) (places : Nat) (keepsPoint : Bool) : String :=
  let (n, e) := leading r places
  pointed n places keepsPoint ++ exponentText e

def general (r : Ratio) (digits : Nat) (isFull : Bool) : String :=
  let digits := max digits 1
  let (n, e) := leading r (digits - 1)
  let strip (text : String) := if isFull then text else stripped text
  if -4 ≤ e && e < digits then strip (fixedPoint r (digits - 1 - e).toNat isFull)
  else strip (pointed n (digits - 1) isFull) ++ exponentText e

def write (letter : Char) (places : Option Nat) (isFull : Bool) (x : Float) : String :=
  if x.isNaN then "nan"
  else if x.isInf then "inf"
  else
    let r := ratio x
    let places := places.getD 6
    match letter with
    | 'f' => fixedPoint r places isFull
    | 'e' => scientific r places isFull
    | _ => general r places isFull

end Write

end BootMedia.Shell.Real
