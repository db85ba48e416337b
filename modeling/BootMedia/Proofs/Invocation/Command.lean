import BootMedia.Invocation.Command
import Mathlib.Data.List.Induction
import Mathlib.Data.String.Basic

namespace BootMedia

namespace EnvChange

def last? (cs : List EnvChange) (k : String) : Option EnvChange := cs.findRev? (·.name == k)

theorem last?_eq (cs : List EnvChange) (k : String) :
    last? cs k = cs.reverse.find? (·.name == k) := by
  rw [last?, List.findRev?_eq_findRev?TR, List.findRev?TR]

theorem last?_append (cs ds : List EnvChange) (k : String) :
    last? (cs ++ ds) k = (last? ds k).or (last? cs k) := by
  simp [last?_eq]

theorem last?_singleton (c : EnvChange) (k : String) :
    last? [c] k = if k = c.name then some c else none := by
  by_cases h : k = c.name
  · simp [last?_eq, h]
  · simp [last?_eq, h, Ne.symm h]

end EnvChange

namespace Command

open EnvChange (last?)

abbrev Entries := List (String × Option String)

def Ordered (es : Entries) : Prop := es.Pairwise (·.1 < ·.1)

variable {name : String} {value : Option String} {es es' : Entries} {entry : String × Option String}

theorem mem_record (h : entry ∈ record name value es) : entry = (name, value) ∨ entry ∈ es := by
  induction es with
  | nil => simpa [record] using h
  | cons e es ih =>
    rw [record] at h
    split_ifs at h
    · simpa using h
    · rcases List.mem_cons.1 h with h | h
      · exact .inl h
      · exact .inr (List.mem_cons_of_mem _ h)
    · rcases List.mem_cons.1 h with h | h
      · exact .inr (by simp [h])
      · exact (ih h).imp_right (List.mem_cons_of_mem _)

theorem Ordered.record (h : Ordered es) : Ordered (record name value es) := by
  induction es with
  | nil => simp [Command.record, Ordered]
  | cons e es ih =>
    obtain ⟨he, hes⟩ := List.pairwise_cons.1 h
    rw [Ordered, Command.record]
    split_ifs with hlt heq
    · exact List.pairwise_cons.2 ⟨fun a ha ↦ (List.mem_cons.1 ha).elim (fun h ↦ h ▸ hlt)
        fun h ↦ hlt.trans (he a h), h⟩
    · exact List.pairwise_cons.2 ⟨fun a ha ↦ heq ▸ he a ha, hes⟩
    · refine List.pairwise_cons.2 ⟨fun a ha ↦ ?_, ih hes⟩
      rcases mem_record ha with rfl | ha
      · exact lt_of_le_of_ne (not_lt.1 hlt) (Ne.symm heq)
      · exact he a ha

theorem lookup_cons (e : String × Option String) (es : Entries) (k : String) :
    List.lookup k (e :: es) = if k = e.1 then some e.2 else es.lookup k := by
  rw [List.lookup_cons]
  by_cases h : k = e.1 <;> simp [h, beq_false_of_ne]

theorem lookup_record (k : String) :
    (record name value es).lookup k = if k = name then some value else es.lookup k := by
  induction es with
  | nil => simp [record, lookup_cons]
  | cons e es ih =>
    rw [record]
    split_ifs <;> grind [lookup_cons]

theorem lookup_eq_none (h : ∀ e ∈ es, name < e.1) : es.lookup name = none := by
  rw [List.lookup_eq_none_iff]
  exact fun e he ↦ by simpa using (h e he).ne

theorem Ordered.ext (h : Ordered es) (h' : Ordered es')
    (hl : ∀ k, es.lookup k = es'.lookup k) : es = es' := by
  induction es generalizing es' with
  | nil =>
    cases es' with
    | nil => rfl
    | cons e es' => simpa [lookup_cons] using hl e.1
  | cons e es ih =>
    cases es' with
    | nil => simpa [lookup_cons] using hl e.1
    | cons e' es' =>
      obtain ⟨he, hes⟩ := List.pairwise_cons.1 h
      obtain ⟨he', hes'⟩ := List.pairwise_cons.1 h'
      -- The smaller of the first two names would not be found in the other list.
      have hname : e.1 = e'.1 := by
        rcases lt_trichotomy e.1 e'.1 with hlt | heq | hgt
        · have hn : (e' :: es').lookup e.1 = none :=
            lookup_eq_none fun a ha ↦ (List.mem_cons.1 ha).elim (fun h ↦ h ▸ hlt)
              fun h ↦ hlt.trans (he' a h)
          simp [← hl, lookup_cons] at hn
        · exact heq
        · have hn : (e :: es).lookup e'.1 = none :=
            lookup_eq_none fun a ha ↦ (List.mem_cons.1 ha).elim (fun h ↦ h ▸ hgt)
              fun h ↦ hgt.trans (he a h)
          simp [hl, lookup_cons] at hn
      have hvalue : e.2 = e'.2 := by
        have hv := hl e.1
        simpa [lookup_cons, hname] using hv
      obtain rfl : e = e' := Prod.ext hname hvalue
      rw [ih hes hes' fun k ↦ ?_]
      by_cases hk : k = e.1
      · rw [hk, lookup_eq_none he, lookup_eq_none he']
      · have hv := hl k
        rwa [lookup_cons, lookup_cons, if_neg hk, if_neg hk] at hv

theorem entries_append_singleton (cs : List EnvChange) (c : EnvChange) :
    entries (cs ++ [c]) = record c.name c.value? (entries cs) := by simp [entries]

theorem ordered_entries (cs : List EnvChange) : Ordered (entries cs) := by
  induction cs using List.reverseRecOn with
  | nil => exact .nil
  | append_singleton cs c ih =>
    rw [entries_append_singleton]
    exact ih.record

theorem lookup_entries (cs : List EnvChange) (k : String) :
    (entries cs).lookup k = (last? cs k).map (·.value?) := by
  induction cs using List.reverseRecOn with
  | nil => rfl
  | append_singleton cs c ih =>
    rw [entries_append_singleton, lookup_record, ih, EnvChange.last?_append,
      EnvChange.last?_singleton]
    split_ifs <;> simp

/-- Changes of different variables all take effect. -/
theorem Ordered.get?_applyAll (h : Ordered es) (e : Environment) (k : String) :
    (e.applyAll es).get? k = (es.lookup k).getD (e.get? k) := by
  induction es generalizing e with
  | nil => rfl
  | cons entry es ih =>
    obtain ⟨he, hes⟩ := List.pairwise_cons.1 h
    change ((e.update entry.1 entry.2).applyAll es).get? k = _
    rw [ih hes, Environment.get?_update, lookup_cons]
    by_cases hk : k = entry.1
    · simp [hk, lookup_eq_none he]
    · simp [hk]

end Command

namespace Invocation

open EnvChange (last?)

/-- The last change of a variable decides what the child sees of it; a variable that is not changed
is inherited. -/
theorem get?_childEnvironment (i : Invocation) (e : Environment) (k : String) :
    (i.toCommand.childEnvironment e).get? k =
      ((last? i.changes k).map (·.value?)).getD (e.get? k) := by
  rw [Command.childEnvironment, toCommand, (Command.ordered_entries _).get?_applyAll,
    Command.lookup_entries]

theorem toCommand_eq {i i' : Invocation} (h : { i with changes := i'.changes } = i')
    (hc : ∀ k, last? i.changes k = last? i'.changes k) : i.toCommand = i'.toCommand := by
  have he : Command.entries i.changes = Command.entries i'.changes :=
    (Command.ordered_entries _).ext (Command.ordered_entries _) fun k ↦ by
      rw [Command.lookup_entries, Command.lookup_entries, hc]
  rw [← h]
  simp [toCommand, he]

end Invocation

end BootMedia
