import BootMedia.Shell.Builtin.Basic

namespace BootMedia.Shell

namespace Builtin

section Mask

def shiftsOf (who : List Char) : List Nat :=
  let all := who.isEmpty || who.contains 'a'
  (if all || who.contains 'u' then [6] else []) ++
    (if all || who.contains 'g' then [3] else []) ++
    (if all || who.contains 'o' then [0] else [])

def permission (bits : Nat) : Char → Nat
  | 'r' => 4
  | 'w' => 2
  | 'x' => 1
  | 'X' => if bits &&& 0o111 = 0 then 0 else 1
  | 'u' => bits >>> 6 &&& 7
  | 'g' => bits >>> 3 &&& 7
  | 'o' => bits &&& 7
  | _ => 0

def changed (shifts : List Nat) (bits : Nat) (operator : Char) (letters : List Char) : Nat :=
  let value := letters.foldl (fun n c ↦ n ||| permission bits c) 0
  shifts.foldl
    (fun b shift ↦
      let mine := value <<< shift
      let others := b &&& (0o777 ^^^ 7 <<< shift)
      match operator with
      | '+' => b ||| mine
      | '-' => b &&& (0o777 ^^^ mine)
      | _ => others ||| mine)
    bits

def isChange (c : Char) : Bool := "+-=".toList.contains c

/-- The changes of a clause behind those whom it is for, in at most the given number of steps. -/
def changes (shifts : List Nat) : Nat → Nat → List Char → Option Nat
  | 0, _, _ => none
  | _, bits, [] => some bits
  | limit + 1, bits, c :: cs =>
    if isChange c then
      let ls := cs.takeWhile ("rwxXsugo".toList.contains ·)
      changes shifts limit (changed shifts bits c ls) (cs.drop ls.length)
    else none

def afterClause (bits : Nat) (clause : List Char) : Option Nat :=
  let who := clause.takeWhile ("ugoa".toList.contains ·)
  match clause.drop who.length with
  | [] => none
  | rest => changes (shiftsOf who) (rest.length + 1) bits rest

def afterText (bits : Nat) (text : String) : Option Nat :=
  let clauses := text.toList.splitOn ','
  let clauses := if clauses.getLast? = some [] then clauses.dropLast else clauses
  clauses.foldlM afterClause bits

def maskText (mask : Nat) : String :=
  let ds := Nat.toDigits 8 mask
  .ofList (List.replicate (4 - ds.length) '0' ++ ds) ++ "\n"

def maskLetters (mask : Nat) : String :=
  let bits := 0o777 ^^^ mask
  let part (name : String) (shift : Nat) : String :=
    let has (n : Nat) (c : String) : String := if bits >>> shift &&& n = 0 then "" else c
    name ++ "=" ++ has 4 "r" ++ has 2 "w" ++ has 1 "x"
  part "u" 6 ++ "," ++ part "g" 3 ++ "," ++ part "o" 0 ++ "\n"

def mask (words : List String) : Act Reply := do
  let (ls, words) ← letters "S" "" words
  let s ← get
  match words with
  | [] => return .ofText (if ls.isEmpty then maskText s.mask else maskLetters s.mask)
  | word :: _ =>
    if word.toList.head?.any Char.isDigit then
      if word.toList.all fun c ↦ '0' ≤ c && c ≤ '7' then
        let n := word.toList.foldl (fun n c ↦ 8 * n + (c.toNat - '0'.toNat)) 0
        modify ({ · with mask := n &&& 0o777 })
      else Act.fail ("Illegal number: " ++ word)
    else
      match afterText (0o777 ^^^ s.mask) word with
      | some bits => modify ({ · with mask := 0o777 ^^^ bits })
      | none => Act.fail ("Illegal mode: " ++ word)
    return .done

end Mask

section Limits

def limitNames : List (Char × String) :=
  [('t', "time(seconds)        "), ('f', "file(blocks)         "),
   ('d', "data(kbytes)         "), ('s', "stack(kbytes)        "),
   ('c', "coredump(blocks)     "), ('m', "memory(kbytes)       "),
   ('l', "locked memory(kbytes) "), ('p', "process              "),
   ('n', "nofiles              "), ('v', "vmemory(kbytes)      "),
   ('w', "locks                "), ('r', "rtprio               ")]

/-- A limit is shown, and nothing is limited; a new limit is taken as it is. -/
def limits (words : List String) : Act Reply := do
  let (ls, words) ← letters "HSatfdscmlpnvwr" "" words
  match words with
  | [] =>
    if ls.any (·.1 = 'a') then
      return .ofText (String.join (limitNames.map (·.2 ++ "unlimited\n")))
    return .ofText "unlimited\n"
  | [word] =>
    if word = "unlimited" || (numeral? word).isSome then return .done else Act.fail "bad number"
  | _ => Act.fail "too many arguments"

end Limits

def times : Reply :=
  .ofText (String.join (List.replicate 2 "0m0.000000s 0m0.000000s\n"))

end Builtin

end BootMedia.Shell
