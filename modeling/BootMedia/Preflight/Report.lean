namespace BootMedia

structure Check where
  name : String
  passed : Bool
  message : String
  suggestion : Option String
deriving DecidableEq, Repr

namespace Check

def pass (name message : String) : Check := ⟨name, true, message, none⟩

def fail (name message suggestion : String) : Check := ⟨name, false, message, some suggestion⟩

def summary (c : Check) : String :=
  (if c.passed then "[OK] " else "[FAIL] ") ++ c.name ++ ": " ++ c.message ++ "\n" ++
    c.suggestion.elim "" fun s ↦ "     Suggestion: " ++ s ++ "\n"

end Check

structure Report where
  checks : List Check
deriving DecidableEq, Repr

namespace Report

def empty : Report := ⟨[]⟩

def push (r : Report) (c : Check) : Report := ⟨r.checks ++ [c]⟩

def isOk (r : Report) : Bool := r.checks.all (·.passed)

def failing (r : Report) : List Check := r.checks.filter (!·.passed)

def passedCount (r : Report) : Nat := r.checks.countP (·.passed)

def verdict (r : Report) : String :=
  let passed := toString r.passedCount
  let total := toString r.checks.length
  if r.isOk then "All preflight checks passed (" ++ passed ++ "/" ++ total ++ ")\n"
  else
    "Preflight checks failed: " ++ passed ++ " of " ++ total ++ " passed\n" ++
      String.join (r.failing.map fun c ↦ "  - " ++ c.name ++ "\n")

def summary (r : Report) : String :=
  "=== Preflight Check Results ===\n\n" ++ String.join (r.checks.map (·.summary)) ++ "\n" ++
    r.verdict

end Report

end BootMedia
