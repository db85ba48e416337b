import BootMedia.Text.Blank
import Mathlib.Data.List.DropRight

namespace BootMedia.Text

variable {cs u m v : List Char}

theorem not_mem_of_mem_splitOn {c : Char} {w : List Char} (h : w ∈ cs.splitOn c) : c ∉ w := by
  induction cs generalizing w with
  | nil =>
    have hw : w = [] := by simpa using h
    simp [hw]
  | cons d cs ih =>
    rw [List.splitOn_cons_eq_if_modifyHead] at h
    obtain ⟨x, xs, hx⟩ := List.exists_cons_of_ne_nil (List.splitOn_ne_nil c cs)
    rw [hx] at ih h
    by_cases hd : d = c
    · simp only [hd, beq_self_eq_true, if_true, List.mem_cons] at h
      rcases h with rfl | h
      · simp
      · exact ih (List.mem_cons.2 h)
    · simp only [beq_iff_eq, hd, if_false, List.modifyHead_cons, List.mem_cons] at h
      rcases h with rfl | h
      · have hc : c ∉ x := ih List.mem_cons_self
        simp [hc, Ne.symm hd]
      · exact ih (List.mem_cons_of_mem _ h)

theorem flatten_splitOnP (p : Char → Bool) (cs : List Char) :
    (cs.splitOnP p).flatten = cs.filter (!p ·) := by
  induction cs with
  | nil => rfl
  | cons c cs ih =>
    rw [List.splitOnP_cons_eq_if_modifyHead]
    obtain ⟨x, xs, hx⟩ := List.exists_cons_of_ne_nil (List.splitOnP_ne_nil p cs)
    rw [hx] at ih ⊢
    cases hc : p c <;> simp [hc, ← ih]

theorem length_le_of_mem_splitOn {c : Char} {w : List Char} (h : w ∈ cs.splitOn c) :
    w.length ≤ cs.length := by
  rw [List.splitOn_eq_splitOnP] at h
  have hsub := List.sublist_flatten_of_mem h
  rw [flatten_splitOnP] at hsub
  exact hsub.length_le.trans (List.length_filter_le _ _)

theorem flatten_words (cs : List Char) : (words cs).flatten = cs.filter (!isBlank ·) := by
  rw [← flatten_splitOnP]
  exact List.flatten_filter_ne_nil

theorem exists_mem_words {c : Char} (hc : isBlank c = false) :
    (∃ w ∈ words cs, c ∈ w) ↔ c ∈ cs := by
  rw [← List.mem_flatten, flatten_words]
  simp [hc]

theorem eq_append_trim (cs : List Char) :
    ∃ u v, (∀ c ∈ u, isBlank c) ∧ (∀ c ∈ v, isBlank c) ∧ cs = u ++ trim cs ++ v := by
  refine ⟨cs.takeWhile isBlank, (cs.dropWhile isBlank).rtakeWhile isBlank,
    fun c hc ↦ List.mem_takeWhile_imp hc, fun c hc ↦ List.mem_rtakeWhile_imp hc, ?_⟩
  rw [List.append_assoc]
  exact (List.takeWhile_append_dropWhile).symm.trans
    (congrArg _ (List.rdropWhile_append_rtakeWhile).symm)

theorem mem_trim {c : Char} (hc : isBlank c = false) : c ∈ trim cs ↔ c ∈ cs := by
  obtain ⟨u, v, hu, hv, he⟩ := eq_append_trim cs
  have hu' : c ∉ u := fun h ↦ by simp [hu c h] at hc
  have hv' : c ∉ v := fun h ↦ by simp [hv c h] at hc
  conv_rhs => rw [he]
  simp [hu', hv']

theorem trim_eq_nil_iff : trim cs = [] ↔ ∀ c ∈ cs, isBlank c := by
  constructor
  · intro h c hc
    obtain ⟨u, v, hu, hv, he⟩ := eq_append_trim cs
    rw [he, h, List.append_nil, List.mem_append] at hc
    exact hc.elim (hu c) (hv c)
  · intro h
    rw [trim, List.dropWhile_eq_nil_iff.2 h]
    rfl

theorem head?_trim (h : trim cs ≠ []) : ∃ c ∈ (trim cs).head?, isBlank c = false := by
  obtain ⟨c, m, hm⟩ := List.exists_cons_of_ne_nil h
  obtain ⟨v, hv⟩ := List.rdropWhile_prefix isBlank (cs.dropWhile isBlank)
  have hd : cs.dropWhile isBlank = trim cs ++ v := hv.symm
  have hb := List.head?_dropWhile_not isBlank cs
  rw [hd, hm] at hb
  exact ⟨c, by simp [hm], hb⟩

theorem getLast?_trim (h : trim cs ≠ []) : ∃ c ∈ (trim cs).getLast?, isBlank c = false :=
  have hb : isBlank ((trim cs).getLast h) ≠ true := List.rdropWhile_last_not _ _ h
  ⟨_, List.getLast?_eq_some_getLast h, by simpa using hb⟩

theorem dropWhile_blank_append (hu : ∀ c ∈ u, isBlank c) (hm : ∃ c ∈ m.head?, isBlank c = false) :
    (u ++ m).dropWhile isBlank = m := by
  obtain ⟨c, hc, hb⟩ := hm
  rw [List.dropWhile_append_of_pos hu]
  cases m with
  | nil => simp at hc
  | cons d m =>
    obtain rfl : d = c := by simpa using hc
    simp [hb]

/-- Trimming takes off exactly the blanks around a text that begins and ends with something else. -/
theorem trim_append (hu : ∀ c ∈ u, isBlank c) (hv : ∀ c ∈ v, isBlank c)
    (hm : ∃ c ∈ m.head?, isBlank c = false) (hm' : ∃ c ∈ m.getLast?, isBlank c = false) :
    trim (u ++ m ++ v) = m := by
  have hne : m ≠ [] := by rintro rfl; simp at hm
  have hd : ((u ++ (m ++ v)).dropWhile isBlank) = m ++ v := by
    apply dropWhile_blank_append hu
    rwa [List.head?_append_of_ne_nil _ hne]
  rw [trim, List.append_assoc, hd, List.reverse_append, dropWhile_blank_append,
    List.reverse_reverse]
  · simpa using hv
  · simpa using hm'

end BootMedia.Text
