import BootMedia.Emulator.Drive
import Mathlib.Algebra.GroupWithZero.Nat
import Mathlib.Algebra.Order.BigOperators.Group.List
import Mathlib.Algebra.Order.Group.Nat

namespace BootMedia.Drive

variable {cs f : List Char} {fs : List (List Char)} {o : String × String} {os : Options}

theorem fields_ne_nil (cs : List Char) : fields cs ≠ [] := by
  fun_induction fields cs with
  | case1 => simp
  | case2 cs ih =>
    obtain ⟨f, fs, hf⟩ := List.exists_cons_of_ne_nil ih
    simp [hf]
  | case3 => simp
  | case4 c cs _ _ ih =>
    obtain ⟨f, fs, hf⟩ := List.exists_cons_of_ne_nil ih
    simp [hf]

theorem count_comma_fields (cs : List Char) :
    cs.count ',' + 1 = ((fields cs).map fun f ↦ 2 * f.count ',' + 1).sum := by
  fun_induction fields cs with
  | case1 => rfl
  | case2 cs ih =>
    obtain ⟨f, fs, hf⟩ := List.exists_cons_of_ne_nil (fields_ne_nil cs)
    simp only [hf, List.modifyHead_cons, List.map_cons, List.sum_cons, List.count_cons_self] at ih ⊢
    omega
  | case3 cs _ ih =>
    simp only [List.count_cons_self, List.map_cons, List.sum_cons, List.count_nil]
    omega
  | case4 c cs _ hc ih =>
    obtain ⟨f, fs, hf⟩ := List.exists_cons_of_ne_nil (fields_ne_nil cs)
    simp only [hf, List.modifyHead_cons, List.map_cons, List.sum_cons,
      List.count_cons_of_ne hc] at ih ⊢
    omega

theorem count_comma_intercalate (hne : fs ≠ []) :
    ([','].intercalate fs).count ',' + 1 = (fs.map fun f ↦ f.count ',' + 1).sum := by
  induction fs with
  | nil => exact absurd rfl hne
  | cons f fs ih =>
    cases fs with
    | nil => simp
    | cons g fs =>
      have h := ih (by simp)
      rw [List.intercalate_cons_cons, List.map_cons, List.sum_cons, ← h]
      simp only [List.count_append, List.count_singleton_self]
      omega

theorem fields_append (hf : ',' ∉ f) (cs : List Char) :
    fields (f ++ cs) = (fields cs).modifyHead (f ++ ·) := by
  induction f with
  | nil =>
    obtain ⟨g, gs, hg⟩ := List.exists_cons_of_ne_nil (fields_ne_nil cs)
    simp [hg]
  | cons c f ih =>
    have hc : c ≠ ',' := fun h ↦ hf (by simp [h])
    have ih := ih fun h ↦ hf (List.mem_cons_of_mem _ h)
    obtain ⟨g, gs, hg⟩ := List.exists_cons_of_ne_nil (fields_ne_nil cs)
    rw [List.cons_append, fields, if_neg hc, ih, hg]
    · rfl
    · exact fun _ h ↦ absurd h hc

theorem fields_comma_cons {c : Char} (hc : c ≠ ',') (cs : List Char) :
    fields (',' :: c :: cs) = [] :: fields (c :: cs) := by
  rw [fields, if_pos rfl]
  rintro ds - h
  exact hc (List.cons.inj h).1

theorem fields_intercalate (hne : fs ≠ []) (hfs : ∀ f ∈ fs, f ≠ [] ∧ ',' ∉ f) :
    fields ([','].intercalate fs) = fs := by
  induction fs with
  | nil => exact absurd rfl hne
  | cons f fs ih =>
    obtain ⟨⟨-, hf⟩, hfs⟩ := List.forall_mem_cons.1 hfs
    cases fs with
    | nil =>
      have h := fields_append hf []
      simpa [fields] using h
    | cons g fs =>
      have ih := ih (by simp) hfs
      obtain ⟨⟨hg, hcomma⟩, -⟩ := List.forall_mem_cons.1 hfs
      obtain ⟨c, g, rfl⟩ := List.exists_cons_of_ne_nil hg
      -- The next field begins with no comma, so that the one before it is a single one.
      have hc : c ≠ ',' := fun h ↦ hcomma (by simp [h])
      obtain ⟨ds, hds⟩ : ∃ ds, [','].intercalate ((c :: g) :: fs) = c :: ds := by
        cases fs with
        | nil => exact ⟨g, by simp⟩
        | cons h fs => exact ⟨_, by rw [List.intercalate_cons_cons]; rfl⟩
      rw [hds] at ih
      rw [List.intercalate_cons_cons, hds, List.append_assoc, fields_append hf,
        List.singleton_append, fields_comma_cons hc, ih]
      simp

theorem fields_intercalate_iff (hne : fs ≠ []) (hfs : ∀ f ∈ fs, f ≠ []) :
    fields ([','].intercalate fs) = fs ↔ ∀ f ∈ fs, ',' ∉ f := by
  constructor
  · intro h f hf hcomma
    have hread := count_comma_fields ([','].intercalate fs)
    rw [h, count_comma_intercalate hne] at hread
    have hlt : (fs.map fun f ↦ f.count ',' + 1).sum < (fs.map fun f ↦ 2 * f.count ',' + 1).sum := by
      have hpos := List.count_pos_iff.2 hcomma
      apply List.sum_lt_sum _ _ fun g _ ↦ by omega
      exact ⟨f, hf, by omega⟩
    omega
  · exact fun h ↦ fields_intercalate hne fun f hf ↦ ⟨hfs f hf, h f hf⟩

def field (o : String × String) : List Char := o.1.toList ++ '=' :: o.2.toList

theorem field_ne_nil (o : String × String) : field o ≠ [] := by simp [field]

theorem toList_write (os : Options) : (write os).toList = [','].intercalate (os.map field) := by
  rw [write, String.toList_intercalate]
  simp [Function.comp_def]
  rfl

theorem option_field (h : '=' ∉ o.1.toList) : option (field o) = o := by
  have hk : ∀ c ∈ o.1.toList, decide (c ≠ '=') = true := by
    intro c hc
    have hne : c ≠ '=' := by
      rintro rfl
      exact h hc
    exact decide_eq_true hne
  rw [option, field, List.takeWhile_append_of_pos hk, List.dropWhile_append_of_pos hk]
  simp

theorem field_option (h : (option f).2 ≠ "") : field (option f) = f := by
  have hd : f.dropWhile (fun c ↦ decide (c ≠ '=')) ≠ [] := by
    intro hd
    refine h ?_
    rw [option, hd]
    rfl
  obtain ⟨c, v, hv⟩ := List.exists_cons_of_ne_nil hd
  obtain rfl : c = '=' := by
    have hhead := List.head?_dropWhile_not (fun c ↦ decide (c ≠ '=')) f
    rw [hv] at hhead
    simpa using hhead
  rw [option, field, hv, String.toList_ofList, String.toList_ofList, List.tail_cons, ← hv]
  exact List.takeWhile_append_dropWhile

/-- Options whose written form shows where each key and each value is, were it not for commas. -/
structure Options.Legible (os : Options) : Prop where
  ne_nil : os ≠ []
  keys : ∀ o ∈ os, '=' ∉ o.1.toList
  values : ∀ o ∈ os, o.2 ≠ ""

/-- Options come back from their written form exactly when none of them holds a comma. -/
theorem read_write_iff (h : os.Legible) : read (write os) = os ↔ ∀ o ∈ os, ',' ∉ field o := by
  have hoptions : (os.map field).map option = os := by
    rw [List.map_map]
    exact (List.map_congr_left fun o ho ↦ option_field (h.keys o ho)).trans (List.map_id os)
  have hfields : read (write os) = os ↔
      fields ([','].intercalate (os.map field)) = os.map field := by
    rw [read, toList_write]
    constructor
    · intro hread
      have hback : ∀ f ∈ fields ([','].intercalate (os.map field)), (field ∘ option) f = f := by
        intro f hf
        apply field_option
        exact h.values _ (hread ▸ List.mem_map_of_mem hf)
      calc fields ([','].intercalate (os.map field))
          = (fields ([','].intercalate (os.map field))).map (field ∘ option) :=
            ((List.map_congr_left hback).trans (List.map_id _)).symm
        _ = os.map field := by rw [← List.map_map, hread]
    · intro hread
      rw [hread, hoptions]
  rw [hfields, fields_intercalate_iff (by simpa using h.ne_nil)]
  · exact List.forall_mem_map
  · exact List.forall_mem_map.2 fun o _ ↦ field_ne_nil o

theorem read_write_file_iff (os : Options) (file : String)
    (hos : ∀ o ∈ os, '=' ∉ o.1.toList ∧ o.2 ≠ "" ∧ ',' ∉ field o) (hfile : file ≠ "") :
    read (write (os ++ [("file", file)])) = os ++ [("file", file)] ↔ ',' ∉ file.toList := by
  have hlegible : Options.Legible (os ++ [("file", file)]) := by
    refine ⟨by simp, ?_, ?_⟩
    · refine List.forall_mem_append.2 ⟨fun o ho ↦ (hos o ho).1, ?_⟩
      simp
    · refine List.forall_mem_append.2 ⟨fun o ho ↦ (hos o ho).2.1, ?_⟩
      simpa using hfile
  rw [read_write_iff hlegible, List.forall_mem_append]
  constructor
  · rintro ⟨-, h⟩ hcomma
    exact h _ (List.mem_singleton_self _) (by simp [field, hcomma])
  · intro h
    refine ⟨fun o ho ↦ (hos o ho).2.2, ?_⟩
    simpa [field] using h

end BootMedia.Drive
