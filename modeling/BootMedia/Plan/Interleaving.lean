import BootMedia.Plan.Session

namespace BootMedia

def FileCall.written? : FileCall → Option Path
  | copy _ dest => some dest
  | write p _ => some p
  | requireFile _ | ensureDirectory _ | copyTime _ _ => none

namespace Plan

variable {α : Type}

def call? : Plan α → Option FileCall
  | call c _ => some c
  | _ => none

def step (runner : Runner) : Plan α → Session → Plan α × Session
  | done result, s => (done result, s)
  | print text next, s => (next, s.print text)
  | reportTime label next, s =>
    (next, s.print ("  [" ++ label ++ "] " ++ elapsedText s.elapsed ++ "\n"))
  | run i next, s =>
    let r := s.run runner i
    (next r.1, r.2)
  | call c next, s =>
    let r := s.call c
    (next r.1, r.2)

end Plan

/-- Plans that go on side by side in one session. In each turn one of them makes its next step. -/
structure Interleaving (ι α : Type) where
  plans : ι → Plan α
  session : Session
  /-- Every file call that was made, with the plan that made it, in order. -/
  calls : List (ι × FileCall)

namespace Interleaving

variable {ι α : Type} [DecidableEq ι]

def start (plans : ι → Plan α) (fs : FileSystem) : Interleaving ι α := ⟨plans, .start fs, []⟩

def turn (runner : Runner) (x : Interleaving ι α) (i : ι) : Interleaving ι α :=
  let r := (x.plans i).step runner x.session
  { plans := fun j ↦ if j = i then r.1 else x.plans j
    session := r.2
    calls := x.calls ++ (x.plans i).call?.toList.map (i, ·) }

def run (runner : Runner) (x : Interleaving ι α) (order : List ι) : Interleaving ι α :=
  order.foldl (turn runner) x

end Interleaving

def lastWriter? {ι : Type} (calls : List (ι × FileCall)) (p : Path) : Option ι :=
  ((calls.filter (·.2.written? = some p)).getLast?).map (·.1)

end BootMedia
