import BootMedia.Process.Startup

namespace BootMedia

abbrev Task := ReaderT Startup (StateM World)

namespace Task

def write (channel : Nat) (text : String) : Task Bool := do
  match (← read).channels.lookup channel with
  | none => return false
  | some stream =>
    match (← get).write stream text with
    | .ok w =>
      set w
      return true
    | .error _ => return false

def complain (text : String) : Task Unit := do
  let _ ← write 2 ((← read).words.headD "" ++ ": " ++ text ++ "\n")

def print (text : String) : Task Nat := do
  if text.isEmpty || (← write 1 text) then return 0
  complain ("write error: " ++ SystemError.badChannel.text)
  return 1

/-- Changes the files; a refusal is reported, with what was to be done. -/
def change (purpose : String) (call : FileSystem → Except SystemError FileSystem) : Task Bool := do
  let w ← get
  match call w.files with
  | .ok files =>
    set { w with files := files }
    return true
  | .error e =>
    complain (purpose ++ ": " ++ e.text)
    return false

def each (words : List String) (task : String → Task Bool) : Task Nat := do
  let done ← words.mapM task
  return if done.all id then 0 else 1

def quoted (name : String) : String := "'" ++ name ++ "'"

def missingOperand : Task Nat := do
  complain "missing operand"
  return 1

def program (task : List String → Task Nat) : Program := fun u w ↦
  let (status, w) := ((task u.words.tail).run u).run w
  (.exited (.ofNat status), w)

def options : List String → List Char × List String
  | [] => ([], [])
  | word :: words =>
    match word.toList with
    | ['-', '-'] => ([], words)
    | '-' :: c :: cs =>
      let (letters, others) := options words
      if c = '-' then (letters, others) else (c :: cs ++ letters, others)
    | _ =>
      let (letters, others) := options words
      (letters, word :: others)

end Task

end BootMedia
