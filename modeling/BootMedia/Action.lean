import BootMedia.Choice

namespace BootMedia

inductive Action where
  | build
  | run
deriving DecidableEq, Repr

namespace Action

def name : Action → String
  | build => "build"
  | run => "run"

instance : Choice Action where
  kind := "action"
  all := [build, run]
  name := name
  complete a := by cases a <;> decide
  name_injective a b := by cases a <;> cases b <;> decide

end Action

end BootMedia
