import BootMedia.Proofs.Invocation.Display
import BootMedia.Proofs.Invocation.Steps
import BootMedia.Proofs.Text.Spacing

namespace BootMedia

open Text

def assignment (a : String × String) : String := a.1 ++ "=" ++ quoted a.2 ++ " "

/-- The value of a variable after assignments that are read from left to right. -/
def assigned? (as : List (String × String)) (k : String) : Option String :=
  as.foldl (fun value a ↦ if a.1 = k then some a.2 else value) none

def IsPlain (name : String) : Prop := '=' ∉ name.toList ∧ ' ' ∉ name.toList

/-- The text begins with these assignments, and with no more. -/
def Shows (text : String) (as : List (String × String)) : Prop :=
  (∀ a ∈ as, IsPlain a.1) ∧ ∃ rest, text = String.join (as.map assignment) ++ rest ∧
    ∀ a x, IsPlain a.1 → rest ≠ assignment a ++ x

variable {as as' : List (String × String)} {a a' : String × String} {x x' text k v : String}

theorem assigned?_append_singleton (as : List (String × String)) (a : String × String)
    (k : String) : assigned? (as ++ [a]) k = if a.1 = k then some a.2 else assigned? as k := by
  simp [assigned?]

theorem assignment_append_inj (h : IsPlain a.1) (h' : IsPlain a'.1)
    (he : assignment a ++ x = assignment a' ++ x') : a = a' ∧ x = x' := by
  have hsplit : ∀ (a : String × String) x,
      assignment a ++ x = a.1 ++ ("=" ++ (quoted a.2 ++ (" " ++ x))) := by
    intro a x
    simp only [assignment, String.append_assoc]
  have hname : ∀ {a : String × String}, IsPlain a.1 → ∀ c ∈ a.1.toList, (c != '=') = true := by
    intro a h c hc
    simpa using ne_of_mem_of_not_mem hc h.1
  rw [hsplit, hsplit] at he
  have hl := congrArg String.toList he
  simp only [String.toList_append] at hl
  obtain ⟨hkey, hrest⟩ := Spacing.append_inj_of_all (hname h) (hname h') (by simp) (by simp) hl
  simp only [← String.toList_append] at hrest
  obtain ⟨hvalue, hrest⟩ :=
    quoted_append_inj ((String.append_right_inj _).1 (String.toList_injective hrest))
  exact ⟨Prod.ext (String.toList_injective hkey) hvalue, (String.append_right_inj _).1 hrest⟩

theorem Shows.unique (h : Shows text as) (h' : Shows text as') : as = as' := by
  obtain ⟨hplain, rest, rfl, hrest⟩ := h
  obtain ⟨hplain', rest', he, hrest'⟩ := h'
  -- What is left of one text is no assignment, and so cannot begin with one of the other.
  induction as generalizing as' with
  | nil =>
    cases as' with
    | nil => rfl
    | cons a' as' =>
      rw [List.map_nil, String.join_nil, String.empty_append, List.map_cons, String.join_cons,
        String.append_assoc] at he
      exact absurd he (hrest a' _ (hplain' a' List.mem_cons_self))
  | cons a as ih =>
    obtain ⟨ha, has⟩ := List.forall_mem_cons.1 hplain
    rw [List.map_cons, String.join_cons, String.append_assoc] at he
    cases as' with
    | nil =>
      rw [List.map_nil, String.join_nil, String.empty_append] at he
      exact absurd he.symm (hrest' a _ ha)
    | cons a' as' =>
      obtain ⟨ha', has'⟩ := List.forall_mem_cons.1 hplain'
      rw [List.map_cons, String.join_cons, String.append_assoc] at he
      obtain ⟨rfl, htail⟩ := assignment_append_inj ha ha' he
      rw [ih has has' htail]

namespace EnvChange

variable {cs : List EnvChange} {c : EnvChange}

def shown? (c : EnvChange) : Option (String × String) := c.value?.map (c.name, ·)

/-- The last change of the variable removes it, after one that sets it. -/
def IsOutdated (cs : List EnvChange) (k : String) : Prop :=
  ∃ before after, cs = before ++ .remove k :: after ∧ (∃ v, .set k v ∈ before) ∧
    ∀ c ∈ after, c.name ≠ k

theorem join_display (cs : List EnvChange) :
    String.join (cs.map (·.display)) = String.join ((cs.filterMap shown?).map assignment) := by
  induction cs with
  | nil => rfl
  | cons c cs ih =>
    rw [List.map_cons, String.join_cons, ih]
    cases c with
    | set name value => simp [display, shown?, value?, EnvChange.name, assignment]
    | remove name => simp [display, shown?, value?, List.filterMap_cons]

theorem last?_eq_some_iff :
    last? cs k = some c ↔
      c.name = k ∧ ∃ before after, cs = before ++ c :: after ∧ ∀ d ∈ after, d.name ≠ k := by
  rw [last?_eq, List.find?_eq_some_iff_append]
  simp only [beq_iff_eq, Bool.not_eq_true', beq_eq_false_iff_ne]
  refine and_congr_right fun _ ↦ ⟨?_, ?_⟩
  · rintro ⟨after, before, he, hafter⟩
    refine ⟨before.reverse, after.reverse, ?_, by simpa using hafter⟩
    simpa using congrArg List.reverse he
  · rintro ⟨before, after, rfl, hafter⟩
    exact ⟨after.reverse, before.reverse, by simp, by simpa using hafter⟩

theorem isOutdated_iff :
    IsOutdated cs k ↔ last? cs k = some (.remove k) ∧ ∃ v, .set k v ∈ cs := by
  rw [last?_eq_some_iff]
  constructor
  · rintro ⟨before, after, rfl, ⟨v, hv⟩, hafter⟩
    exact ⟨⟨rfl, before, after, rfl, hafter⟩, v, List.mem_append_left _ hv⟩
  · rintro ⟨⟨-, before, after, rfl, hafter⟩, v, hv⟩
    refine ⟨before, after, rfl, ⟨v, ?_⟩, hafter⟩
    rcases List.mem_append.1 hv with hv | hv
    · exact hv
    · rcases List.mem_cons.1 hv with hv | hv
      · cases hv
      · exact absurd rfl (hafter _ hv)

theorem assigned?_append (cs : List EnvChange) (c : EnvChange) (k : String) :
    assigned? ((cs ++ [c]).filterMap shown?) k =
      if c.name = k then c.value?.or (assigned? (cs.filterMap shown?) k)
      else assigned? (cs.filterMap shown?) k := by
  cases c with
  | set name value =>
    have hshown : ([.set name value] : List EnvChange).filterMap shown? = [(name, value)] := rfl
    rw [List.filterMap_append, hshown, assigned?_append_singleton]
    rfl
  | remove name =>
    have hshown : ([.remove name] : List EnvChange).filterMap shown? = [] := rfl
    rw [List.filterMap_append, hshown, List.append_nil]
    simp [value?]

theorem assigned?_eq_none_iff :
    assigned? (cs.filterMap shown?) k = none ↔ ∀ v, .set k v ∉ cs := by
  induction cs using List.reverseRecOn with
  | nil => simp [assigned?]
  | append_singleton cs c ih =>
    rw [assigned?_append]
    cases c with
    | set name value =>
      by_cases hname : name = k
      · subst hname
        have hset : ∃ v, EnvChange.set name v ∈ cs ++ [.set name value] := ⟨value, by simp⟩
        simpa only [EnvChange.name, value?, if_true, Option.some_or, reduceCtorEq, false_iff,
          not_forall, not_not] using hset
      · simp [EnvChange.name, hname, ih, Ne.symm hname]
    | remove name => simp [value?, ih]

theorem assigned?_of_last? (h : last? cs k = some c) (hv : c.value? = some v) :
    assigned? (cs.filterMap shown?) k = some v := by
  induction cs using List.reverseRecOn with
  | nil => cases h
  | append_singleton cs d ih =>
    rw [last?_append, last?_singleton] at h
    rw [assigned?_append]
    by_cases hname : k = d.name
    · rw [if_pos hname, Option.some_or, Option.some.injEq] at h
      rw [if_pos hname.symm, h, hv, Option.some_or]
    · rw [if_neg hname, Option.none_or] at h
      rw [if_neg (Ne.symm hname), ih h]

end EnvChange

namespace Invocation

open EnvChange (IsOutdated last? shown?)

variable {i : Invocation}

def assignments (i : Invocation) : List (String × String) := i.changes.filterMap shown?

theorem display_eq_assignments (i : Invocation) :
    i.display =
      String.join (i.assignments.map assignment) ++ (i.program ++ spaced i.arguments) := by
  rw [display_eq, EnvChange.join_display, assignments]

theorem program_ne_assignment (hp : '=' ∉ i.program.toList) (ha : IsPlain a.1) (x : String) :
    i.program ++ spaced i.arguments ≠ assignment a ++ x := by
  intro he
  have hl : i.program.toList ++ (spaced i.arguments).toList =
      a.1.toList ++ '=' :: (quoted a.2 ++ " " ++ x).toList := by
    simpa [assignment] using congrArg String.toList he
  have hspace : ∀ c ∈ (spaced i.arguments).toList.head?, c = ' ' := by
    cases i.arguments <;> simp [spaced]
  rcases List.append_eq_append_iff.1 hl with ⟨u, hname, hargs⟩ | ⟨u, hprogram, hrest⟩
  · cases u with
    | nil => simp [hargs] at hspace
    | cons c u =>
      obtain rfl : c = ' ' := by simpa [hargs] using hspace
      exact ha.2 (by simp [hname])
  · cases u with
    | nil =>
      rw [List.nil_append] at hrest
      simp [← hrest] at hspace
    | cons c u =>
      obtain ⟨rfl, -⟩ := List.cons.inj hrest
      exact hp (by simp [hprogram])

theorem shows_display_iff (hc : ∀ c ∈ i.changes, IsPlain c.name) (hp : '=' ∉ i.program.toList) :
    Shows i.display as ↔ as = i.assignments := by
  have hplain : ∀ a ∈ i.assignments, IsPlain a.1 := by
    intro a ha
    obtain ⟨c, hmem, hshown⟩ := List.mem_filterMap.1 ha
    obtain ⟨v, -, rfl⟩ := Option.map_eq_some_iff.1 hshown
    exact hc c hmem
  have hshows : Shows i.display i.assignments :=
    ⟨hplain, _, i.display_eq_assignments, fun _ x ha ↦ program_ne_assignment hp ha x⟩
  constructor
  · intro h
    exact h.unique hshows
  · rintro rfl
    exact hshows

theorem value?_eq (i : Invocation) (k : String) :
    i.value? k = (last? i.changes k).bind (·.value?) := rfl

theorem assigned?_of_value? (h : i.value? k = some v) : assigned? i.assignments k = some v := by
  obtain ⟨c, hlast, hvalue⟩ := Option.bind_eq_some_iff.1 h
  exact EnvChange.assigned?_of_last? hlast hvalue

theorem value?_eq_none_of_isOutdated (h : IsOutdated i.changes k) : i.value? k = none := by
  rw [value?_eq, (EnvChange.isOutdated_iff.1 h).1]
  rfl

theorem exists_assigned?_of_isOutdated (h : IsOutdated i.changes k) :
    ∃ v, assigned? i.assignments k = some v := by
  obtain ⟨v, hv⟩ := (EnvChange.isOutdated_iff.1 h).2
  exact Option.ne_none_iff_exists'.1 fun hnone ↦ EnvChange.assigned?_eq_none_iff.1 hnone v hv

theorem assigned?_eq_value?_iff :
    assigned? i.assignments k = i.value? k ↔ ¬ IsOutdated i.changes k := by
  constructor
  · intro h hout
    obtain ⟨v, hv⟩ := exists_assigned?_of_isOutdated hout
    rw [hv, value?_eq_none_of_isOutdated hout] at h
    cases h
  · intro hout
    cases hv : i.value? k with
    | some v => exact assigned?_of_value? hv
    | none =>
      -- A variable that was never set, or else its last change is a removal.
      refine EnvChange.assigned?_eq_none_iff.2 fun v hset ↦ hout ?_
      refine EnvChange.isOutdated_iff.2 ⟨?_, v, hset⟩
      cases hlast : last? i.changes k with
      | none => exact absurd rfl (EnvChange.last?_eq_none_iff.1 hlast _ hset)
      | some c =>
        rw [value?_eq, hlast, Option.bind_some] at hv
        obtain rfl : c.name = k := (EnvChange.last?_eq_some_iff.1 hlast).1
        cases c with
        | set name value => cases hv
        | remove name => rfl

theorem get?_childEnvironment_of_value? (h : i.value? k = some v) (e : Environment) :
    (i.toCommand.childEnvironment e).get? k = some v := by
  rw [value?_eq] at h
  obtain ⟨c, hlast, hvalue⟩ := Option.bind_eq_some_iff.1 h
  rw [get?_childEnvironment, hlast, Option.map_some, hvalue, Option.getD_some]

/-- Of the calls of the toolchain and the emulator nothing is printed that the child lacks. -/
theorem OfTarget.assigned?_eq_value? (h : i.OfTarget) (k : String) :
    assigned? i.assignments k = i.value? k := by
  apply assigned?_eq_value?_iff.2
  rintro ⟨before, after, he, ⟨v, hv⟩, -⟩
  cases h with
  | launch t =>
    have hnone : (launchInvocation t).changes = [] := rfl
    simp [hnone] at he
  | build t flags l =>
    -- Its one removal is the first change.
    rw [changes_buildInvocation] at he
    cases before with
    | nil => cases hv
    | cons c before =>
      rw [List.cons_append, List.cons.injEq] at he
      have hremoved : EnvChange.remove k ∈ before ++ .remove k :: after := by simp
      rw [← he.2] at hremoved
      simp at hremoved

/-- For any invocation and any variable: what is printed in front of the program are its
assignments, and they can be read off the text. The last one of the variable is what the description
and the command say of it, and what the child gets, just if the variable was not removed after it
had been set; all that the child is given is printed in any case. A variable that was removed after
it had been set is printed, and no child has it. -/
theorem display_assigns_iff (i : Invocation) (k : String) :
    i.display = String.join (i.assignments.map assignment) ++ (i.program ++ spaced i.arguments) ∧
    ((∀ c ∈ i.changes, IsPlain c.name) → '=' ∉ i.program.toList →
      ∀ as, Shows i.display as ↔ as = i.assignments) ∧
    (assigned? i.assignments k = i.value? k ↔ ¬ IsOutdated i.changes k) ∧
    ((∀ v, assigned? i.assignments k = some v ↔ (k, some v) ∈ i.toCommand.environment) ↔
      ¬ IsOutdated i.changes k) ∧
    (∀ v, i.value? k = some v → assigned? i.assignments k = some v ∧
      ∀ e, (i.toCommand.childEnvironment e).get? k = some v) ∧
    (IsOutdated i.changes k → (∃ v, assigned? i.assignments k = some v) ∧
      ∀ e, (i.toCommand.childEnvironment e).get? k = none) := by
  refine ⟨i.display_eq_assignments, fun hc hp as ↦ shows_display_iff hc hp, assigned?_eq_value?_iff,
    ?_, fun v hv ↦ ⟨assigned?_of_value? hv, get?_childEnvironment_of_value? hv⟩, ?_⟩
  · rw [← assigned?_eq_value?_iff]
    simp only [← value?_eq_some_iff]
    exact Option.ext_iff.symm
  · intro hout
    refine ⟨exists_assigned?_of_isOutdated hout, fun e ↦ ?_⟩
    rw [get?_childEnvironment, (EnvChange.isOutdated_iff.1 hout).1]
    rfl

theorem display_assigns_iff_set_and_removed :
    let i := ofSteps "p" [.unset "K", .set "K" "v", .set "L" "w", .unset "L"]
    (∀ as, Shows i.display as ↔ as = [("K", "v"), ("L", "w")]) ∧
      (∀ e, (i.toCommand.childEnvironment e).get? "K" = some "v") ∧
      ∀ e, (i.toCommand.childEnvironment e).get? "L" = none := by
  intro i
  have hplain : ∀ c ∈ i.changes, IsPlain c.name := by
    simp only [i, IsPlain]
    decide
  have hout : IsOutdated i.changes "L" :=
    ⟨[.remove "K", .set "K" "v", .set "L" "w"], [], rfl, ⟨"w", by simp⟩, by simp⟩
  exact ⟨(display_assigns_iff i "K").2.1 hplain (by decide),
    ((display_assigns_iff i "K").2.2.2.2.1 "v" rfl).2,
    ((display_assigns_iff i "L").2.2.2.2.2 hout).2⟩

/-- A variable that was set and then removed is printed as set, and no child has it. -/
theorem displays_removed_variable :
    let i := ((ofProgram "p").set "K" "v").unset "K"
    i.display = "K=\"v\" p" ∧ (∀ as, Shows i.display as ↔ as = [("K", "v")]) ∧
      assigned? [("K", "v")] "K" = some "v" ∧ i.value? "K" = none ∧
      ∀ e, (i.toCommand.childEnvironment e).get? "K" = none := by
  intro i
  have hplain : ∀ c ∈ i.changes, IsPlain c.name := by
    simp only [i, IsPlain]
    decide
  have hdisplay : i.display = "K=\"v\" p" := by decide +kernel
  refine ⟨hdisplay, fun as ↦ shows_display_iff hplain (by decide), rfl, rfl, fun e ↦ ?_⟩
  rw [get?_childEnvironment]
  rfl

end Invocation

end BootMedia
