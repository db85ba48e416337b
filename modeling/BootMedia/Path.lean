namespace BootMedia

/-- A path as it is written. Nothing in it is cleaned. -/
structure Path where
  text : String
deriving DecidableEq, Repr, Inhabited

namespace Path

def startsAtRoot (s : String) : Bool := s.toList.head? == some '/'

def endsInSlash (s : String) : Bool := s.toList.getLast? == some '/'

def isAbsolute (p : Path) : Bool := startsAtRoot p.text

/-- `rest` seen from `base`: a `rest` that starts at the root stands alone, any other one follows
`base` after exactly the slash that is missing. -/
def join (base : Path) (rest : String) : Path :=
  if startsAtRoot rest then ⟨rest⟩
  else if base.text.isEmpty || endsInSlash base.text then ⟨base.text ++ rest⟩
  else ⟨base.text ++ "/" ++ rest⟩

instance : HDiv Path String Path := ⟨join⟩

def seenFrom (directory p : Path) : Path := directory / p.text

def names (p : Path) : List String :=
  ((p.text.toList.splitOn '/').filter (· ≠ [])).map String.ofList

/-- The names in the order a walk takes them. A slash at the end asks for a directory, and is kept
as an empty last name. -/
def steps (p : Path) : List String := if endsInSlash p.text then p.names ++ [""] else p.names

def fileName (p : Path) : String := p.names.getLastD ""

end Path

end BootMedia
