import BootMedia.Text.Octets

namespace BootMedia.Host

structure Interpreter where
  path : String
  argument : Option String
deriving DecidableEq, Repr

namespace Interpreter

def headSize : Nat := 256

def head (bytes : ByteArray) : List UInt8 :=
  let first := (bytes.extract 0 headSize).toList
  first ++ List.replicate (headSize - first.length) 0

def isBlank (b : UInt8) : Bool := b == 0x20 || b == 0x09

def endsName (b : UInt8) : Bool := isBlank b || b == 0

/-- The first line of the text behind `#!`. Where it has no visible end, all but the last byte is
taken for it, provided that the name ends in the text. -/
def line? (text : List UInt8) : Option (List UInt8) :=
  match text.dropWhile fun b ↦ b ≠ 0x0a && b ≠ 0 with
  | 0x0a :: _ => some (text.takeWhile (· ≠ 0x0a))
  | _ => if (text.dropWhile isBlank).any endsName then some text.dropLast else none

def trim (line : List UInt8) : List UInt8 :=
  ((line.reverse.dropWhile isBlank).reverse).dropWhile isBlank

def text (bytes : List UInt8) : String := Text.Octets.read ⟨bytes.toArray⟩

def ofLine (line : List UInt8) : Interpreter where
  path := text (line.takeWhile (!endsName ·))
  argument :=
    match line.dropWhile (!endsName ·) with
    | [] => none
    | b :: rest =>
      if isBlank b then some (text ((rest.dropWhile isBlank).takeWhile (· ≠ 0))) else none

def ofBytes? (bytes : ByteArray) : Option Interpreter :=
  match head bytes with
  | 0x23 :: 0x21 :: rest =>
    match (line? rest).map trim with
    | some (b :: line) => some (ofLine (b :: line))
    | _ => none
  | _ => none

end Interpreter

end BootMedia.Host
