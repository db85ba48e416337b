import BootMedia.Action
import BootMedia.Flags
import BootMedia.Target.Basic

namespace BootMedia

structure Request where
  action : Action
  target : Target
  flags : Flags
deriving DecidableEq, Repr

/-- The request with the given names. The first unknown one of action, architecture and
configuration is reported. -/
def Request.ofNames (action architecture configuration : String) (flags : Flags) (layout : Layout) :
    Except Failure Request := do
  let a ← Choice.parse action
  let t ← Target.ofNames architecture configuration layout
  return ⟨a, t, flags⟩

end BootMedia
