import BootMedia.Invocation.Hermetic
import BootMedia.Proofs.Invocation.Command

namespace BootMedia.Invocation

open EnvChange (last?)

variable {flags : Flags} {l : Layout} {k : String}

def hermeticVariables : List String :=
  [buildFlagsVariable, flagsVariable, encodedFlagsVariable, targetPathVariable]

def hermeticChanges (flags : Flags) (l : Layout) : List EnvChange :=
  [.remove buildFlagsVariable, .set flagsVariable "", .set encodedFlagsVariable flags.encode,
   .set targetPathVariable l.root.text]

theorem hermetic_eq (i : Invocation) (flags : Flags) (l : Layout) :
    i.hermetic flags l = { i with changes := i.changes ++ hermeticChanges flags l } := by
  simp [hermetic, unset, set, change, hermeticChanges]

/-- A hermetic step has the last word on its own variables, and none on others. -/
theorem last?_hermeticChanges (flags : Flags) (l : Layout) (k : String) :
    last? (hermeticChanges flags l) k =
      if k = targetPathVariable then some (.set targetPathVariable l.root.text)
      else if k = encodedFlagsVariable then some (.set encodedFlagsVariable flags.encode)
      else if k = flagsVariable then some (.set flagsVariable "")
      else if k = buildFlagsVariable then some (.remove buildFlagsVariable)
      else none := by
  have he : hermeticChanges flags l = [.remove buildFlagsVariable] ++ [.set flagsVariable ""] ++
      [.set encodedFlagsVariable flags.encode] ++ [.set targetPathVariable l.root.text] := rfl
  simp only [he, EnvChange.last?_append, EnvChange.last?_singleton, EnvChange.name]
  grind

theorem last?_hermeticChanges_eq_none :
    last? (hermeticChanges flags l) k = none ↔ k ∉ hermeticVariables := by
  rw [last?_hermeticChanges, hermeticVariables]
  split_ifs <;> simp_all

theorem exists_last?_hermeticChanges (flags : Flags) (l : Layout) (h : k ∈ hermeticVariables) :
    ∃ c, last? (hermeticChanges flags l) k = some c :=
  Option.ne_none_iff_exists'.1 fun hn ↦ last?_hermeticChanges_eq_none.1 hn h

def Step.changes : Step → List EnvChange
  | .set name value => [.set name value]
  | .unset name => [.remove name]
  | .hermetic flags layout => hermeticChanges flags layout
  | .arguments _ | .directory _ => []

theorem step_changes (i : Invocation) (s : Step) (cs : List EnvChange) :
    step { i with changes := cs } s = { step i s with changes := cs ++ s.changes } := by
  cases s with
  | hermetic flags l => simp only [step, Step.changes, hermetic_eq]
  | _ => simp [step, Step.changes, withArguments, set, unset, change, inDirectory]

theorem foldl_step_changes (steps : List Step) (i : Invocation) (cs : List EnvChange) :
    steps.foldl step { i with changes := cs } =
      { steps.foldl step i with changes := cs ++ steps.flatMap Step.changes } := by
  induction steps generalizing i cs with
  | nil => simp
  | cons s steps ih =>
    rw [List.foldl_cons, step_changes, ih, List.foldl_cons, List.flatMap_cons, List.append_assoc]

theorem toCommand_hermetic_hermetic (i : Invocation) (steps : List Step) (flags flags' : Flags)
    (l l' : Layout) :
    ((steps.foldl step (i.hermetic flags' l')).hermetic flags l).toCommand =
      ((steps.foldl step i).hermetic flags l).toCommand := by
  have hi : steps.foldl step i =
      { steps.foldl step i with changes := i.changes ++ steps.flatMap Step.changes } :=
    foldl_step_changes steps i i.changes
  rw [hermetic_eq i, foldl_step_changes, hi, hermetic_eq, hermetic_eq]
  apply toCommand_eq rfl
  intro k
  simp only [EnvChange.last?_append]
  by_cases hk : k ∈ hermeticVariables
  · obtain ⟨c, hc⟩ := exists_last?_hermeticChanges flags l hk
    simp [hc]
  · simp [last?_hermeticChanges_eq_none.2 hk]

theorem get?_childEnvironment_hermetic (i : Invocation) (flags : Flags) (l : Layout)
    (e : Environment) (k : String) :
    ((i.hermetic flags l).toCommand.childEnvironment e).get? k =
      ((last? (hermeticChanges flags l) k).map (·.value?)).getD
        ((i.toCommand.childEnvironment e).get? k) := by
  rw [get?_childEnvironment, get?_childEnvironment, hermetic_eq]
  dsimp only
  rw [EnvChange.last?_append]
  cases last? (hermeticChanges flags l) k <;> rfl

/-- For any program, described by any steps, and any environment of the caller: the hermetic
variables of the child follow from the flags and the workspace alone, all else is left as it is,
and of several hermetic steps only the last one counts. -/
theorem hermetic_environment (program : String) (steps : List Step) (flags : Flags) (l : Layout) :
    let i := ofSteps program steps
    let child := (i.hermetic flags l).toCommand.childEnvironment
    (∀ e, (child e).get? encodedFlagsVariable = some flags.encode ∧
      (child e).get? flagsVariable = some "" ∧
      (child e).get? buildFlagsVariable = none ∧
      (child e).get? targetPathVariable = some l.root.text ∧
      ∀ k ∉ hermeticVariables, (child e).get? k = (i.toCommand.childEnvironment e).get? k) ∧
    { i.hermetic flags l with changes := i.changes } = i ∧
    { (i.hermetic flags l).toCommand with environment := i.toCommand.environment } = i.toCommand ∧
    (∀ e e', (∀ k ∉ hermeticVariables, e.get? k = e'.get? k) →
      ∀ k, (child e).get? k = (child e').get? k) ∧
    ∀ flags' l' between,
      ((ofSteps program (steps ++ .hermetic flags' l' :: between)).hermetic flags l).toCommand =
        ((ofSteps program (steps ++ between)).hermetic flags l).toCommand := by
  intro i child
  have hchild (e : Environment) (k : String) : (child e).get? k =
      ((last? (hermeticChanges flags l) k).map (·.value?)).getD
        ((i.toCommand.childEnvironment e).get? k) :=
    get?_childEnvironment_hermetic i flags l e k
  have hother (e : Environment) (k : String) (hk : k ∉ hermeticVariables) :
      (child e).get? k = (i.toCommand.childEnvironment e).get? k := by
    rw [hchild, last?_hermeticChanges_eq_none.2 hk]
    rfl
  refine ⟨fun e ↦ ⟨?_, ?_, ?_, ?_, hother e⟩, by rw [hermetic_eq], by rw [hermetic_eq]; rfl, ?_, ?_⟩
  · rw [hchild, last?_hermeticChanges]
    simp [encodedFlagsVariable, targetPathVariable, EnvChange.value?]
  · rw [hchild, last?_hermeticChanges]
    simp [flagsVariable, encodedFlagsVariable, targetPathVariable, EnvChange.value?]
  · rw [hchild, last?_hermeticChanges]
    simp [buildFlagsVariable, flagsVariable, encodedFlagsVariable, targetPathVariable,
      EnvChange.value?]
  · rw [hchild, last?_hermeticChanges]
    simp [EnvChange.value?]
  · intro e e' he k
    by_cases hk : k ∈ hermeticVariables
    · obtain ⟨c, hc⟩ := exists_last?_hermeticChanges flags l hk
      rw [hchild, hchild, hc]
      rfl
    · rw [hother e k hk, hother e' k hk, get?_childEnvironment, get?_childEnvironment, he k hk]
  · intro flags' l' between
    simp only [ofSteps, List.foldl_append, List.foldl_cons]
    exact toCommand_hermetic_hermetic (steps.foldl step (ofProgram program)) between flags flags'
      l l'

theorem hermetic_environment_ambient_flags :
    let e := Environment.ofList [("PATH", "/bin"), ("RUSTFLAGS", "-Cambient")]
    let e' := Environment.ofList [("CARGO_BUILD_RUSTFLAGS", "-Cbuild"), ("PATH", "/bin")]
    let i := ofSteps "cargo" [.set "RUSTFLAGS" "-Cearlier", .arguments ["build"]]
    let child := (i.hermetic ⟨some "-a", none⟩ ⟨⟨"/ws"⟩⟩).toCommand.childEnvironment
    (∀ k ∉ hermeticVariables, e.get? k = e'.get? k) ∧
      ∀ k, (child e).get? k = (child e').get? k := by
  intro e e' i child
  have h : ∀ k ∉ hermeticVariables, e.get? k = e'.get? k := by
    intro k hk
    simp only [hermeticVariables, List.mem_cons, not_or, flagsVariable, buildFlagsVariable] at hk
    simp only [e, e', Environment.ofList, List.foldl_cons, List.foldl_nil, Environment.get?_update]
    simp [hk]
  exact ⟨h, (hermetic_environment _ _ _ _).2.2.2.1 e e' h⟩

end BootMedia.Invocation
