namespace BootMedia.Text.Octets

def single (b : UInt8) : Char := .ofNat b.toNat

/-- Bytes as an octet text, which has one character for each of them. -/
def read (bytes : ByteArray) : String := .ofList (bytes.toList.map single)

def write (text : String) : ByteArray := ⟨(text.toList.map fun c ↦ UInt8.ofNat c.toNat).toArray⟩

def ofText (text : String) : String := read text.toUTF8

section Decode

def replacement : Char := '\ufffd'

def second? (first : UInt8) : Option (UInt8 × UInt8) :=
  if first < 0xc2 || 0xf4 < first then none
  else if first = 0xe0 then some (0xa0, 0xbf)
  else if first = 0xed then some (0x80, 0x9f)
  else if first = 0xf0 then some (0x90, 0xbf)
  else if first = 0xf4 then some (0x80, 0x8f)
  else some (0x80, 0xbf)

/-- The number of bytes from a place on that begin a character together, where they do not make a
whole one. -/
def brokenSize (bytes : ByteArray) (i : Nat) : Nat :=
  match bytes[i]?.bind second?, bytes[i + 1]? with
  | some (low, high), some b =>
    if b < low || high < b then 1
    else if 0xf0 ≤ bytes[i]?.getD 0 && (bytes[i + 2]?).any (fun b ↦ 0x80 ≤ b && b ≤ 0xbf) then 3
    else 2
  | _, _ => 1

def decodeFrom (bytes : ByteArray) : Nat → Nat → List Char
  | 0, _ => []
  | limit + 1, i =>
    if i < bytes.size then
      match bytes.utf8DecodeChar? i with
      | some c => c :: decodeFrom bytes limit (i + c.utf8Size)
      | none => replacement :: decodeFrom bytes limit (i + brokenSize bytes i)
    else []

def decode (bytes : ByteArray) : String := .ofList (decodeFrom bytes bytes.size 0)

def toText (octets : String) : String := decode (write octets)

end Decode

end BootMedia.Text.Octets
