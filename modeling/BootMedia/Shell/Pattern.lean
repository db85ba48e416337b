namespace BootMedia.Shell

inductive Pattern.Item where
  | range (low high : Char)
  | named (isIn : Char → Bool)

inductive Pattern.Element where
  | anyText
  | anyChar
  | char (c : Char)
  | oneOf (isInverted : Bool) (items : List Pattern.Item)

abbrev Pattern := List Pattern.Element

namespace Pattern

def classes : List (String × (Char → Bool)) :=
  [("alpha", Char.isAlpha), ("digit", Char.isDigit), ("alnum", Char.isAlphanum),
   ("upper", Char.isUpper), ("lower", Char.isLower),
   ("space", fun c ↦ c = ' ' || ('\t' ≤ c && c ≤ '\r')), ("blank", fun c ↦ c = ' ' || c = '\t'),
   ("punct", fun c ↦ '!' ≤ c && c ≤ '~' && !c.isAlphanum),
   ("print", fun c ↦ ' ' ≤ c && c ≤ '~'), ("graph", fun c ↦ '!' ≤ c && c ≤ '~'),
   ("cntrl", fun c ↦ c < ' ' || c = '\x7f'),
   ("xdigit", fun c ↦ c.isDigit || ('A' ≤ c && c ≤ 'F') || ('a' ≤ c && c ≤ 'f'))]

section Read

def class? (cs : List Char) : Option (Item × List Char) :=
  classes.findSome? fun k ↦
    let name := (k.1 ++ ":]").toList
    if name.isPrefixOf cs then some (.named k.2, cs.drop name.length) else none

/-- The range that begins with a character, and what follows it. A dash before the closing bracket
begins nothing. -/
def range (low : Char) (cs : List Char) : Item × List Char :=
  match cs with
  | '-' :: ']' :: _ => (.range low low, cs)
  | '-' :: '\\' :: high :: rest => (.range low high, rest)
  | '-' :: high :: rest => (.range low high, rest)
  | _ => (.range low low, cs)

/-- The items up to the closing bracket, in at most the given number of steps, and what follows it.
The first item may be a closing bracket itself. -/
def items? : Nat → Bool → List Char → Option (List Item × List Char)
  | 0, _, _ | _, _, [] => none
  | limit + 1, isFirst, c :: cs =>
    if c = ']' && !isFirst then some ([], cs)
    else
      let (item, rest) :=
        match c, cs with
        | '[', ':' :: name => (class? name).getD (range c cs)
        | '\\', d :: rest => range d rest
        | _, _ => range c cs
      (items? limit false rest).map fun r ↦ (item :: r.1, r.2)

def oneOf? (cs : List Char) : Option (Element × List Char) :=
  match cs with
  | '!' :: rest | '^' :: rest =>
    (items? (rest.length + 1) true rest).map fun r ↦ (.oneOf true r.1, r.2)
  | _ => (items? (cs.length + 1) true cs).map fun r ↦ (.oneOf false r.1, r.2)

def read : Nat → List Char → Pattern
  | 0, _ | _, [] => []
  | limit + 1, c :: cs =>
    match c, cs with
    | '*', _ => .anyText :: read limit cs
    | '?', _ => .anyChar :: read limit cs
    | '\\', d :: rest => .char d :: read limit rest
    | '[', _ =>
      match oneOf? cs with
      | some (e, rest) => e :: read limit rest
      | none => .char c :: read limit cs
    | _, _ => .char c :: read limit cs

def ofChars (cs : List Char) : Pattern := read cs.length cs

end Read

section Match

def Item.contains (c : Char) : Item → Bool
  | range low high => low ≤ c && c ≤ high
  | named isIn => isIn c

def anyEnd (holds : List Char → Bool) : List Char → Bool
  | [] => holds []
  | c :: cs => holds (c :: cs) || anyEnd holds cs

def isMatch : Pattern → List Char → Bool
  | [], text => text.isEmpty
  | .anyText :: p, text => anyEnd (isMatch p) text
  | .anyChar :: p, _ :: cs => isMatch p cs
  | .char d :: p, c :: cs => c = d && isMatch p cs
  | .oneOf isInverted items :: p, c :: cs =>
    (items.any (·.contains c)) != isInverted && isMatch p cs
  | _ :: _, [] => false

end Match

def lengths (text : List Char) : List Nat := List.range (text.length + 1)

def frontLength? (p : Pattern) (longest : Bool) (text : List Char) : Option Nat :=
  let candidates := if longest then (lengths text).reverse else lengths text
  candidates.find? fun n ↦ p.isMatch (text.take n)

def backLength? (p : Pattern) (longest : Bool) (text : List Char) : Option Nat :=
  let candidates := if longest then lengths text else (lengths text).reverse
  candidates.find? fun n ↦ p.isMatch (text.drop n)

end Pattern

end BootMedia.Shell
