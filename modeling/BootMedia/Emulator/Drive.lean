import BootMedia.Path

namespace BootMedia.Drive

abbrev Options := List (String × String)

def write (options : Options) : String :=
  ",".intercalate (options.map fun o ↦ o.1 ++ "=" ++ o.2)

/-- The text cut at its single commas; a doubled comma stands for a comma. -/
def fields : List Char → List (List Char)
  | [] => [[]]
  | ',' :: ',' :: cs => (fields cs).modifyHead (',' :: ·)
  | c :: cs => if c = ',' then [] :: fields cs else (fields cs).modifyHead (c :: ·)

def option (field : List Char) : String × String :=
  (.ofList (field.takeWhile (· ≠ '=')), .ofList (field.dropWhile (· ≠ '=')).tail)

def read (s : String) : Options := (fields s.toList).map option

def media (directory : Path) : Options :=
  [("format", "raw"), ("file", "fat:rw:" ++ directory.text)]

def code (image : Path) : Options :=
  [("if", "pflash"), ("format", "raw"), ("readonly", "on"), ("file", image.text)]

def vars (image : Path) : Options :=
  [("if", "pflash"), ("format", "raw"), ("file", image.text)]

end BootMedia.Drive
