import BootMedia.Environment
import BootMedia.Process.World
import BootMedia.Process.Signal

namespace BootMedia

/-- What a program is given when it starts. All texts are octet texts. -/
structure Startup where
  words : List String
  environment : Environment
  channels : Channels
  process : Nat
  parent : Nat
  ignored : List Nat
  mask : Nat

abbrev Program := Startup → World → Termination × World

abbrev Launcher := Path → Startup → World → Except SystemError (Termination × World)

abbrev Starter := Launcher → Program

def shellFile : Path := ⟨"/bin/sh"⟩

def World.takeSignals (w : World) (process : Nat) : List Nat × World :=
  let (own, others) := w.signals.partition (·.1 = process)
  (own.reverse.map (·.2), { w with signals := others })

def Signal.ofNumber? (n : Nat) : Option Signal :=
  if h : 1 ≤ n ∧ n ≤ 64 then some ⟨n, h⟩ else none

end BootMedia
