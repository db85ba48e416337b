import BootMedia.Failure
import BootMedia.FileSystem.Call
import BootMedia.Invocation.Basic

namespace BootMedia

/-- What a request does, as a tree of the texts it prints, the programs it runs and the file calls
it makes. -/
inductive Plan (α : Type) where
  | done (result : Except Failure α)
  | print (text : String) (next : Plan α)
  | reportTime (label : String) (next : Plan α)
  | run (invocation : Invocation) (next : Except Failure Int → Plan α)
  | call (call : FileCall) (next : Except Fault Unit → Plan α)

namespace Plan

variable {α β : Type}

def andThen : Plan α → (Except Failure α → Plan β) → Plan β
  | done result, k => k result
  | print text next, k => print text (next.andThen k)
  | reportTime label next, k => reportTime label (next.andThen k)
  | run invocation next, k => run invocation fun r ↦ (next r).andThen k
  | call c next, k => call c fun r ↦ (next r).andThen k

def fail (f : Failure) : Plan α := done (.error f)

instance : Monad Plan where
  pure a := done (.ok a)
  bind p k := p.andThen fun
    | .ok a => k a
    | .error f => fail f

def line (text : String) : Plan Unit := print (text ++ "\n") (pure ())

def exitCode (i : Invocation) : Plan Int := run i done

def attempt (c : FileCall) : Plan (Except Fault Unit) := call c pure

/-- Makes a file call; a refusal ends the plan with the failure that stands for it. -/
def require (c : FileCall) (failure : Fault → Failure) : Plan Unit :=
  call c fun
    | .ok () => pure ()
    | .error f => fail (failure f)

def timed (label : String) (p : Plan α) : Plan α := p.andThen fun r ↦ reportTime label (done r)

end Plan

end BootMedia
