namespace BootMedia

structure Environment where
  /-- The variables with their values. Of two of the same name the first counts. -/
  entries : List (String × String)
deriving DecidableEq, Repr

namespace Environment

def empty : Environment := ⟨[]⟩

instance : Inhabited Environment := ⟨empty⟩

def get? (e : Environment) (name : String) : Option String := e.entries.lookup name

def update (e : Environment) (name : String) (value : Option String) : Environment :=
  let others := e.entries.filter (·.1 != name)
  match value with
  | some v => ⟨(name, v) :: others⟩
  | none => ⟨others⟩

theorem lookup_filter_ne {name k : String} (h : k ≠ name) (entries : List (String × String)) :
    (entries.filter (·.1 != name)).lookup k = entries.lookup k := by
  induction entries with
  | nil => rfl
  | cons entry rest ih => grind

theorem lookup_filter_self (name : String) (entries : List (String × String)) :
    (entries.filter (·.1 != name)).lookup name = none := by
  induction entries with
  | nil => rfl
  | cons entry rest ih => grind

theorem get?_update (e : Environment) (name : String) (value : Option String) (k : String) :
    (e.update name value).get? k = if k = name then value else e.get? k := by
  by_cases h : k = name
  · subst h
    cases value <;> simp [update, get?, lookup_filter_self]
  · cases value <;> simp [update, get?, lookup_filter_ne h, List.lookup_cons, beq_false_of_ne h, h]

/-- `e` with one more entry as a program reads it: the entry is written as name, equals sign and
value, and what stands before the first equals sign is taken for the name. -/
def receive (e : Environment) (name value : String) : Environment :=
  match name.toList.dropWhile (· ≠ '=') with
  | [] => e.update name (some value)
  | _ :: rest =>
    e.update (.ofList (name.toList.takeWhile (· ≠ '='))) (some (.ofList rest ++ "=" ++ value))

def ofList (vars : List (String × String)) : Environment :=
  vars.foldl (fun e v ↦ e.update v.1 (some v.2)) empty

def applyAll (e : Environment) (changes : List (String × Option String)) : Environment :=
  changes.foldl (fun e c ↦ e.update c.1 c.2) e

def sorted (e : Environment) : List (String × String) :=
  e.entries.mergeSort fun a b ↦ a.1 ≤ b.1

end Environment

end BootMedia
