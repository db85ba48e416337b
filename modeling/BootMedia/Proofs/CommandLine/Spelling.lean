import BootMedia.CommandLine.Arguments
import Mathlib.Data.List.Infix

namespace BootMedia.CommandLine

/-- The argument is a short spelling, alone or with an equals sign behind it. -/
def IsShort (argument : String) : Prop :=
  ∃ o : ValueOption, argument = o.short ∨ (o.short ++ "=").toList <+: argument.toList

variable {o : ValueOption} {argument value : String}

theorem isShort_iff : IsShort argument ↔
    ∃ o : ValueOption, argument = o.short ∨ ∃ value, argument = o.short ++ "=" ++ value := by
  have hprefix : ∀ o : ValueOption, (o.short ++ "=").toList <+: argument.toList ↔
      ∃ value, argument = o.short ++ "=" ++ value := by
    intro o
    constructor
    · rintro ⟨cs, hcs⟩
      exact ⟨.ofList cs, String.toList_inj.1 (by simp [← hcs])⟩
    · rintro ⟨value, rfl⟩
      exact ⟨value.toList, by simp⟩
  simp only [IsShort, hprefix]

@[simp]
theorem expandShort_short (o : ValueOption) : expandShort o.short = o.long := by
  cases o <;> rfl

@[simp]
theorem expandShort_short_equals (o : ValueOption) (value : String) :
    expandShort (o.short ++ "=" ++ value) = o.long ++ "=" ++ value := by
  cases o <;>
    simp [expandShort, ValueOption.all, ValueOption.short, List.isPrefixOf?, String.ext_iff]

theorem expandShort_of_not_isShort (h : ¬IsShort argument) : expandShort argument = argument := by
  have hnone : ∀ o : ValueOption, argument ≠ o.short ∧
      (o.short ++ "=").toList.isPrefixOf? argument.toList = none := by
    intro o
    refine ⟨fun ha ↦ h ⟨o, .inl ha⟩, ?_⟩
    cases hp : (o.short ++ "=").toList.isPrefixOf? argument.toList with
    | none => rfl
    | some cs =>
      exact absurd ⟨o, .inr ⟨cs, List.isPrefixOf?_eq_some_iff_append_eq.1 hp⟩⟩ h
  simp only [expandShort, ValueOption.all, List.findSome?_cons, List.findSome?_nil,
    (hnone _).1, (hnone _).2, if_false, Option.map_none, Option.getD_none]

theorem IsShort.second (h : IsShort argument) : argument.toList[1]? ≠ some '-' := by
  obtain ⟨o, rfl | ⟨value, rfl⟩⟩ := isShort_iff.1 h
  · cases o <;> decide
  · cases o <;> simp [ValueOption.short]

theorem not_isShort_long (o : ValueOption) (value : String) : ¬IsShort (o.long ++ value) := by
  intro h
  apply h.second
  simp [ValueOption.long]

theorem expandShort_eq_self_iff : expandShort argument = argument ↔ ¬IsShort argument := by
  refine ⟨fun h hshort ↦ ?_, expandShort_of_not_isShort⟩
  obtain ⟨o, rfl | ⟨value, rfl⟩⟩ := isShort_iff.1 hshort
  · have hlong := not_isShort_long o ""
    rw [String.append_empty, ← expandShort_short, h] at hlong
    exact hlong hshort
  · have hlong := not_isShort_long o ("=" ++ value)
    rw [← String.append_assoc, ← expandShort_short_equals, h] at hlong
    exact hlong hshort

def IsName (argument : String) : Prop := argument.toList.head? ≠ some '-'

instance (argument : String) : Decidable (IsName argument) := inferInstanceAs (Decidable (_ ≠ _))

theorem IsName.not_isShort (h : IsName argument) : ¬IsShort argument := by
  intro hshort
  apply h
  obtain ⟨o, rfl | ⟨value, rfl⟩⟩ := isShort_iff.1 hshort
  · cases o <;> decide
  · cases o <;> simp [ValueOption.short]

theorem IsName.shape (h : IsName argument) : CommandLine.shape argument.toList = .name := by
  unfold CommandLine.shape
  split
  · next hcs => exact absurd (by simp [hcs]) h
  · next hcs => exact absurd (by simp [hcs]) h
  · next hcs => exact absurd (by simp [hcs]) h
  · rfl

theorem ofName?_name (o : ValueOption) : ValueOption.ofName? o.name.toList = some o := by
  cases o <;> decide

theorem shape_long (o : ValueOption) : shape o.long.toList = .long o.name.toList none := by
  cases o <;> decide

theorem shape_long_equals (o : ValueOption) (value : String) :
    shape (o.long ++ "=" ++ value).toList = .long o.name.toList (some value.toList) := by
  cases o <;> simp [ValueOption.long, ValueOption.name, shape, afterEquals?]

end BootMedia.CommandLine
