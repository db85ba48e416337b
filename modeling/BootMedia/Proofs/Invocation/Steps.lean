import BootMedia.Proofs.Invocation.Hermetic
import BootMedia.Proofs.Text.ByteOrder

namespace BootMedia

namespace EnvChange

theorem last?_eq_none_iff {cs : List EnvChange} {k : String} :
    last? cs k = none ↔ ∀ c ∈ cs, c.name ≠ k := by
  simp [last?_eq]

end EnvChange

namespace Command

variable {es : Entries} {k : String} {value : Option String}

theorem Ordered.mem_iff (h : Ordered es) : (k, value) ∈ es ↔ es.lookup k = some value := by
  induction es with
  | nil => simp
  | cons e es ih =>
    obtain ⟨he, hes⟩ := List.pairwise_cons.1 h
    rw [List.mem_cons, ih hes, lookup_cons]
    split
    · next hk =>
      rw [hk, lookup_eq_none he]
      simp [Prod.ext_iff, eq_comm]
    · next hk =>
      have hne : (k, value) ≠ e := fun heq ↦ hk (heq ▸ rfl)
      simp [hne]

end Command

namespace Invocation

open EnvChange (last?)

namespace Step

def added : Step → List String
  | .arguments args => args
  | .set .. | .unset _ | .directory _ | .hermetic .. => []

def entered? : Step → Option Path
  | .directory p => some p
  | .arguments _ | .set .. | .unset _ | .hermetic .. => none

/-- Two steps of different kinds, or changes of different variables. -/
def Apart : Step → Step → Prop
  | .arguments _, .arguments _ | .directory _, .directory _ => False
  | s, t => ∀ c ∈ s.changes, ∀ d ∈ t.changes, c.name ≠ d.name

variable {s t : Step} {block : List Step}

theorem Apart.added (h : s.Apart t) : s.added = [] ∨ t.added = [] := by
  cases s <;> cases t <;> simp_all [Apart, Step.added]

theorem Apart.entered? (h : s.Apart t) : s.entered? = none ∨ t.entered? = none := by
  cases s <;> cases t <;> simp_all [Apart, Step.entered?]

theorem Apart.changes (h : s.Apart t) : ∀ c ∈ s.changes, ∀ d ∈ t.changes, c.name ≠ d.name := by
  cases s <;> cases t <;> simp_all [Apart, Step.changes]

end Step

theorem step_eq (i : Invocation) (s : Step) :
    step i s =
      ⟨i.program, i.arguments ++ s.added, i.changes ++ s.changes, s.entered?.or i.directory⟩ := by
  cases s with
  | hermetic flags l => simp [step, hermetic_eq, Step.added, Step.changes, Step.entered?]
  | _ =>
    simp [step, withArguments, set, unset, change, inDirectory, Step.added, Step.changes,
      Step.entered?]

theorem ofSteps_eq (program : String) (steps : List Step) :
    ofSteps program steps =
      ⟨program, steps.flatMap Step.added, steps.flatMap Step.changes,
        (steps.filterMap Step.entered?).getLast?⟩ := by
  induction steps using List.reverseRecOn with
  | nil => rfl
  | append_singleton steps s ih =>
    have hstep : ofSteps program (steps ++ [s]) = step (ofSteps program steps) s := by
      simp [ofSteps]
    rw [hstep, ih, step_eq]
    cases hs : s.entered? <;> simp [hs]

section Entries

variable {i : Invocation} {k v : String}

theorem mem_environment_iff {value : Option String} :
    (k, value) ∈ i.toCommand.environment ↔ (last? i.changes k).map (·.value?) = some value := by
  rw [toCommand, (Command.ordered_entries _).mem_iff, Command.lookup_entries]

theorem value?_eq_some_iff : i.value? k = some v ↔ (k, some v) ∈ i.toCommand.environment := by
  rw [mem_environment_iff]
  change (last? i.changes k).bind (·.value?) = some v ↔ _
  cases last? i.changes k <;> simp

theorem value?_eq_none_iff :
    i.value? k = none ↔
      (k, none) ∈ i.toCommand.environment ∨ ∀ value, (k, value) ∉ i.toCommand.environment := by
  simp only [mem_environment_iff]
  change (last? i.changes k).bind (·.value?) = none ↔ _
  cases last? i.changes k <;> simp

theorem exists_mem_environment_iff :
    (∃ value, (k, value) ∈ i.toCommand.environment) ↔ ∃ c ∈ i.changes, c.name = k := by
  have hnone : last? i.changes k = none ↔ ∀ c ∈ i.changes, c.name ≠ k :=
    EnvChange.last?_eq_none_iff
  simp only [mem_environment_iff]
  cases hl : last? i.changes k with
  | none => simpa [hl] using hnone
  | some c => simpa [hl] using hnone

end Entries

theorem toCommand_move (program : String) (before after : List Step) {s : Step} {block : List Step}
    (h : ∀ t ∈ block, s.Apart t) :
    (ofSteps program (before ++ s :: block ++ after)).toCommand =
      (ofSteps program (before ++ block ++ s :: after)).toCommand := by
  have hadded : s.added ++ block.flatMap Step.added = block.flatMap Step.added ++ s.added := by
    by_cases hs : s.added = []
    · simp [hs]
    · have hblock : block.flatMap Step.added = [] :=
        List.flatMap_eq_nil_iff.2 fun t ht ↦ (h t ht).added.resolve_left hs
      simp [hblock]
  have hentered : (s :: block).filterMap Step.entered? =
      (block ++ [s]).filterMap Step.entered? := by
    cases hs : s.entered? with
    | none => simp [hs]
    | some p =>
      have hblock : block.filterMap Step.entered? = [] :=
        List.filterMap_eq_nil_iff.2 fun t ht ↦ (h t ht).entered?.resolve_left (by simp [hs])
      simp [hs, hblock]
  have hlast : ∀ k, last? s.changes k = none ∨ last? (block.flatMap Step.changes) k = none := by
    intro k
    by_cases hs : ∃ c ∈ s.changes, c.name = k
    · obtain ⟨c, hc, rfl⟩ := hs
      refine .inr (EnvChange.last?_eq_none_iff.2 fun d hd ↦ ?_)
      obtain ⟨t, ht, hd⟩ := List.mem_flatMap.1 hd
      exact ((h t ht).changes c hc d hd).symm
    · exact .inl (EnvChange.last?_eq_none_iff.2 (by simpa using hs))
  rw [ofSteps_eq, ofSteps_eq]
  apply toCommand_eq
  · -- Arguments and directory are the same; the changes need not be.
    have hargs : (before ++ s :: block ++ after).flatMap Step.added =
        (before ++ block ++ s :: after).flatMap Step.added := by
      simp only [List.flatMap_append, List.flatMap_cons, List.append_assoc]
      rw [← List.append_assoc s.added, hadded, List.append_assoc]
    have hdirs : (before ++ s :: block ++ after).filterMap Step.entered? =
        (before ++ block ++ s :: after).filterMap Step.entered? := by
      rw [List.filterMap_append, List.filterMap_append, hentered, ← List.filterMap_append,
        ← List.filterMap_append]
      simp
    rw [hargs, hdirs]
  · intro k
    simp only [List.flatMap_append, List.flatMap_cons, EnvChange.last?_append]
    rcases hlast k with hk | hk <;> simp [hk, Option.or_assoc]

/-- For any program and any steps: the description and the command say the same of each variable,
the entries of the command are those of the changed variables, in strict order of their bytes, and
arguments and directory are those of the steps, as far as they can be handed over. A step can be
moved past others that are apart from it. -/
theorem toCommand_ofSteps (program : String) (steps : List Step) :
    let i := ofSteps program steps
    let c := i.toCommand
    (∀ k v, i.value? k = some v ↔ (k, some v) ∈ c.environment) ∧
    (∀ k, i.value? k = none ↔
      (k, none) ∈ c.environment ∨ ∀ value, (k, value) ∉ c.environment) ∧
    (∀ k, (∃ value, (k, value) ∈ c.environment) ↔ ∃ s ∈ steps, ∃ d ∈ s.changes, d.name = k) ∧
    (c.environment.Pairwise fun e e' ↦ e.1.toUTF8.toList < e'.1.toUTF8.toList) ∧
    c.arguments = (steps.flatMap Step.added).map Command.handed ∧
    c.directory = (steps.filterMap Step.entered?).getLast?.map (⟨Command.handed ·.text⟩) ∧
    ∀ before s block after, steps = before ++ s :: block ++ after → (∀ t ∈ block, s.Apart t) →
      (ofSteps program (before ++ block ++ s :: after)).toCommand = c := by
  intro i c
  have hi : i = ⟨program, steps.flatMap Step.added, steps.flatMap Step.changes,
      (steps.filterMap Step.entered?).getLast?⟩ := ofSteps_eq program steps
  have harguments : i.arguments = steps.flatMap Step.added := by rw [hi]
  have hdirectory : i.directory = (steps.filterMap Step.entered?).getLast? := by rw [hi]
  refine ⟨fun k v ↦ value?_eq_some_iff, fun k ↦ value?_eq_none_iff, fun k ↦ ?_, ?_, ?_, ?_, ?_⟩
  · rw [exists_mem_environment_iff, hi]
    simp only [List.mem_flatMap]
    grind
  · exact (Command.ordered_entries i.changes).imp Text.toUTF8_lt
  · exact congrArg (List.map Command.handed) harguments
  · exact congrArg (Option.map fun d ↦ Path.mk (Command.handed d.text)) hdirectory
  · intro before s block after hsteps h
    rw [← toCommand_move program before after h, ← hsteps]

theorem toCommand_ofSteps_null_character :
    let steps := [Step.arguments ["a\x00b"]]
    (ofSteps "p" steps).toCommand.arguments ≠ steps.flatMap Step.added := by
  decide

theorem toCommand_ofSteps_set_last :
    let moved := Step.set "K" "v"
    let block := [Step.arguments ["a"], .unset "L", .directory ⟨"d"⟩,
      .hermetic ⟨none, none⟩ ⟨⟨"/ws"⟩⟩]
    (∀ t ∈ block, moved.Apart t) ∧
      (ofSteps "p" (block ++ [moved])).toCommand = (ofSteps "p" (moved :: block)).toCommand := by
  intro moved block
  have h : ∀ t ∈ block, moved.Apart t := by
    simp [block, moved, Step.Apart, Step.changes, hermeticChanges, EnvChange.name,
      buildFlagsVariable, flagsVariable, encodedFlagsVariable, targetPathVariable]
  have hmove := (toCommand_ofSteps "p" (moved :: block)).2.2.2.2.2.2 [] moved block [] (by simp) h
  exact ⟨h, hmove⟩

end Invocation

end BootMedia
