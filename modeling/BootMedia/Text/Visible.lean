namespace BootMedia.Text.Visible

inductive Mode where
  | ground
  | escape
  | designation
  | control
  | deviceStart
  | deviceNumber
  | deviceMark
  | string
  | systemString
deriving DecidableEq, Repr

def isAscii (c : Char) : Bool := c.toNat < 0x80

def isControlSpace (c : Char) : Bool := ['\t', '\n', '\x0c', '\r'].contains c

def isWithin (c first last : Char) : Bool := first ≤ c && c ≤ last

def isShown (m : Mode) (c : Char) : Bool :=
  match m with
  | .ground => isControlSpace c || isWithin c ' ' '~' || !isAscii c
  | .escape | .designation | .control => isControlSpace c
  | _ => false

def stringEnd : UInt8 := 0x9c

def afterEscape (c : Char) : Mode :=
  if c = '[' then .control
  else if c = ']' then .systemString
  else if c = 'P' then .deviceStart
  else if ['X', '^', '_'].contains c then .string
  else if isWithin c ' ' '/' then .designation
  else if isWithin c '0' '~' then .ground
  else .escape

/-- The mode behind a character that is not shown. Two control characters break off any sequence,
and an escape character begins a new one. -/
def next (m : Mode) (c : Char) : Mode :=
  if c = '\x18' ∨ c = '\x1a' then .ground
  else if c = '\x1b' then .escape
  else
    match m with
    | .ground => .ground
    | .escape => afterEscape c
    | .designation => if isWithin c '0' '~' then .ground else m
    | .control => if isWithin c '@' '~' then .ground else m
    | .deviceStart =>
      if isWithin c ' ' '/' then .deviceMark
      else if isWithin c '0' '?' then .deviceNumber
      else if isWithin c '@' '~' then .string
      else m
    | .deviceNumber =>
      if isWithin c ' ' '/' then .deviceMark
      else if isWithin c '<' '~' then .string
      else m
    | .deviceMark => if isWithin c '0' '~' then .string else m
    | .string =>
      if !isAscii c && (String.utf8EncodeChar c).contains stringEnd then .ground else m
    | .systemString => if c = '\x07' then .ground else m

structure State where
  mode : Mode
  showing : Bool
  shown : List Char
deriving Repr

def start : State := ⟨.ground, false, []⟩

def step (s : State) (c : Char) : State :=
  if isShown (if s.showing then .ground else s.mode) c then
    ⟨if isAscii c then s.mode else .ground, true, c :: s.shown⟩
  else ⟨next s.mode c, false, s.shown⟩

end BootMedia.Text.Visible

namespace BootMedia.Text

def visible (text : String) : String :=
  .ofList (text.toList.foldl Visible.step Visible.start).shown.reverse

end BootMedia.Text
