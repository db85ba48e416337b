import BootMedia.FileSystem.Tree
import BootMedia.Shell.Field
import BootMedia.Text.Octets

namespace BootMedia.Shell.FileName

def isClosed : Nat → List Char → Bool
  | 0, _ | _, [] => false
  | limit + 1, '\\' :: cs => isClosedBehind limit cs.tail cs.isEmpty
  | limit + 1, _ :: cs => isClosedBehind limit cs false
where
  isClosedBehind (limit : Nat) (cs : List Char) (isOver : Bool) : Bool :=
    !isOver && (cs.head? == some ']' || isClosed limit cs)

def isPattern : List Char → Bool
  | [] => false
  | '\\' :: _ :: cs => isPattern cs
  | '*' :: _ | '?' :: _ => true
  | '[' :: cs =>
    let inside := if cs.head? = some '!' then cs.tail else cs
    isClosed inside.length inside || isPattern cs
  | _ :: cs => isPattern cs

def unescaped : List Char → List Char
  | '\\' :: c :: cs => c :: unescaped cs
  | c :: cs => c :: unescaped cs
  | [] => []

def names : List Char → List (List Char)
  | [] => [[]]
  | '\\' :: '/' :: cs | '/' :: cs => [] :: names cs
  | '\\' :: c :: cs => consEach ['\\', c] (names cs)
  | c :: cs => consEach [c] (names cs)
where
  consEach (lead : List Char) : List (List Char) → List (List Char)
    | [] => [lead]
    | n :: ns => (lead ++ n) :: ns

def entries (fs : FileSystem) (directory : String) : List String :=
  let path := if directory.isEmpty then "." else directory
  match fs.resolve ⟨Text.Octets.toText path⟩ with
  | .ok i =>
    match fs.node? i with
    | some (.directory _ es) => "." :: ".." :: es.map (Text.Octets.ofText ·.1)
    | _ => []
  | .error _ => []

def isMatch (pattern : List Char) (name : String) : Bool :=
  let asksForDot := pattern.head? = some '.' || ['\\', '.'].isPrefixOf pattern
  (name.toList.head? ≠ some '.' || asksForDot) && (Pattern.ofChars pattern).isMatch name.toList

def isThere (fs : FileSystem) (path : String) : Bool :=
  match fs.locateName ⟨Text.Octets.toText path⟩ with
  | .ok (.node _) => true
  | _ => false

def expand (fs : FileSystem) (lead : String) : List (List Char) → List String
  | [] => []
  | [n] =>
    if isPattern n then ((entries fs lead).filter (isMatch n)).map (lead ++ ·)
    else
      let path := lead ++ .ofList (unescaped n)
      if isThere fs path then [path] else []
  | n :: ns =>
    if isPattern n then
      ((entries fs lead).filter (isMatch n)).flatMap fun name ↦ expand fs (lead ++ name ++ "/") ns
    else expand fs (lead ++ .ofList (unescaped n) ++ "/") ns

/-- The paths that a field stands for, in order: those of its pattern or, if there are none, the
field itself. -/
def ofField (fs : FileSystem) (field : List Glyph) : List String :=
  let ns := names (Glyph.patternChars false field)
  let found := if ns.any isPattern then expand fs "" ns else []
  if found.isEmpty then [Glyph.text field] else found.mergeSort (· ≤ ·)

end BootMedia.Shell.FileName
