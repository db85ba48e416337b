namespace BootMedia

inductive SystemError where
  | notPermitted
  | notFound
  | argumentTooLong
  | badExecutable
  | badChannel
  | unavailable
  | accessDenied
  | alreadyExists
  | notDirectory
  | isDirectory
  | fileBusy
  | noSpace
  | nameTooLong
  | notEmpty
  | linkLoop
  /-- A path with a null character in it is not handed over to the system. -/
  | nullInPath
  | nullInCommand
deriving DecidableEq, Repr

namespace SystemError

def all : List SystemError :=
  [notPermitted, notFound, argumentTooLong, badExecutable, badChannel, unavailable, accessDenied,
   alreadyExists, notDirectory, isDirectory, fileBusy, noSpace, nameTooLong, notEmpty, linkLoop,
   nullInPath, nullInCommand]

def number? : SystemError → Option Nat
  | notPermitted => some 1
  | notFound => some 2
  | argumentTooLong => some 7
  | badExecutable => some 8
  | badChannel => some 9
  | unavailable => some 11
  | accessDenied => some 13
  | alreadyExists => some 17
  | notDirectory => some 20
  | isDirectory => some 21
  | fileBusy => some 26
  | noSpace => some 28
  | nameTooLong => some 36
  | notEmpty => some 39
  | linkLoop => some 40
  | nullInPath | nullInCommand => none

def ofNumber? (n : Nat) : Option SystemError := all.find? (·.number? == some n)

theorem ofNumber?_eq_some {e : SystemError} {n : Nat} (h : e.number? = some n) :
    ofNumber? n = some e := by
  cases e <;> cases h <;> rfl

def text : SystemError → String
  | notPermitted => "Operation not permitted"
  | notFound => "No such file or directory"
  | argumentTooLong => "Argument list too long"
  | badExecutable => "Exec format error"
  | badChannel => "Bad file descriptor"
  | unavailable => "Resource temporarily unavailable"
  | accessDenied => "Permission denied"
  | alreadyExists => "File exists"
  | notDirectory => "Not a directory"
  | isDirectory => "Is a directory"
  | fileBusy => "Text file busy"
  | noSpace => "No space left on device"
  | nameTooLong => "File name too long"
  | notEmpty => "Directory not empty"
  | linkLoop => "Too many levels of symbolic links"
  | nullInPath => "file name contained an unexpected NUL byte"
  | nullInCommand => "nul byte found in provided data"

def message (e : SystemError) : String :=
  e.text ++ e.number?.elim "" fun n ↦ " (os error " ++ toString n ++ ")"

end SystemError

end BootMedia
