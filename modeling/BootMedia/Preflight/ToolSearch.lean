import BootMedia.Environment
import BootMedia.FileSystem.Walk

namespace BootMedia

def searchPathVariable : String := "PATH"

def homeVariable : String := "HOME"

def searchEntries (searchPath : String) : List String :=
  (searchPath.toList.splitOn ':').map .ofList

namespace ToolSearch

/-- The home directory of the user: that of the account, if the variable is not set or empty. The
path `account` is empty if that is not known. -/
def home (account : Path) (e : Environment) : Path :=
  (((e.get? homeVariable).filter (!·.isEmpty)).map Path.mk).getD account

/-- An entry with its home directory put in, if its first name is exactly `~`. Its other names then
follow one by one, so that repeated slashes and single dots are dropped. -/
def expand (home : Path) (entry : String) : Path :=
  if !Path.startsAtRoot entry && (entry.toList.splitOn '/').head? == some ['~'] then
    ((Path.mk entry).names.tail.filter (· ≠ ".")).foldl (· / ·) home
  else ⟨entry⟩

def candidates (home : Path) (searchPath tool : String) : List Path :=
  (searchEntries searchPath).map fun entry ↦ expand home entry / tool

def find? (fs : FileSystem) (home : Path) (searchPath tool : String) : Option Path :=
  (candidates home searchPath tool).find? fs.isExecutable

end ToolSearch

end BootMedia
