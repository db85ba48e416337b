import BootMedia.Proofs.Flags

namespace BootMedia.Flags

open Text

variable {f : Flags} {c : String} {ts : List String}

def ofCompiler (c : String) : Flags := ⟨some c, none⟩

def IsWord (t : String) : Prop := t ≠ "" ∧ ∀ c ∈ t.toList, isBlank c = false

theorem isWord_of_mem_compilerArguments {t : String} (h : t ∈ f.compilerArguments) : IsWord t := by
  obtain ⟨w, hw, rfl⟩ := List.mem_map.1 h
  exact ⟨by simpa using words_ne_nil hw, by simpa using solid_of_mem_words hw⟩

theorem arguments_ofCompiler (c : String) :
    (ofCompiler c).arguments = (ofCompiler c).compilerArguments := by
  have hlinker : (ofCompiler c).linkerArguments = [] := linkerArguments_eq_nil rfl
  rw [arguments, hlinker, List.append_nil]

theorem compilerArguments_intercalate (h : ∀ t ∈ ts, IsWord t) (linker : Option String) :
    compilerArguments ⟨some (" ".intercalate ts), linker⟩ = ts := by
  have hwords : ∀ w ∈ ts.map String.toList, w ≠ [] ∧ ∀ c ∈ w, isBlank c = false := by
    intro w hw
    obtain ⟨t, ht, rfl⟩ := List.mem_map.1 hw
    exact ⟨by simpa using (h t ht).1, (h t ht).2⟩
  have htext : (" ".intercalate ts).toList = [' '].intercalate (ts.map String.toList) :=
    String.toList_intercalate
  rw [compilerArguments, Option.getD_some, htext, words_intercalate hwords]
  simp

theorem arguments_display (c : String) (linker : Option String) :
    (Flags.mk (some (ofCompiler c).display) linker).arguments =
      (Flags.mk (some c) linker).arguments := by
  have hcompiler : compilerArguments ⟨some (ofCompiler c).display, linker⟩ =
      (ofCompiler c).compilerArguments := by
    rw [display, arguments_ofCompiler]
    exact compilerArguments_intercalate (fun t ↦ isWord_of_mem_compilerArguments) linker
  rw [arguments, hcompiler]
  rfl

theorem display_eq_self_iff :
    (ofCompiler c).display = c ↔ ∃ ts, (∀ t ∈ ts, IsWord t) ∧ c = " ".intercalate ts := by
  constructor
  · intro h
    refine ⟨(ofCompiler c).arguments, fun t ht ↦ ?_, h.symm⟩
    rw [arguments_ofCompiler] at ht
    exact isWord_of_mem_compilerArguments ht
  · rintro ⟨ts, hts, rfl⟩
    rw [display, arguments_ofCompiler]
    exact congrArg _ (compilerArguments_intercalate hts none)

theorem display_eq_iff {c' : String} :
    (ofCompiler c).display = (ofCompiler c').display ↔
      (ofCompiler c).arguments = (ofCompiler c').arguments := by
  constructor
  · intro h
    calc (ofCompiler c).arguments
        = (ofCompiler (ofCompiler c).display).arguments := (arguments_display c none).symm
      _ = (ofCompiler (ofCompiler c').display).arguments := by rw [h]
      _ = (ofCompiler c').arguments := arguments_display c' none
  · intro h
    rw [display, h, display]

theorem display_append_linker {l : String} (hc : ∃ x ∈ c.toList, isBlank x = false)
    (hl : trim l.toList ≠ []) :
    (Flags.mk (some c) (some l)).display =
      (ofCompiler c).display ++ " " ++ (linkerLead ++ .ofList (trim l.toList)) := by
  have hcompiler : (ofCompiler c).arguments ≠ [] := by
    obtain ⟨x, hx, hb⟩ := hc
    intro h
    rw [arguments_ofCompiler, compilerArguments, List.map_eq_nil_iff, words_eq_nil_iff] at h
    have hblank := h x hx
    rw [hb] at hblank
    contradiction
  have harguments : (Flags.mk (some c) (some l)).arguments =
      (ofCompiler c).arguments ++ [linkerLead ++ .ofList (trim l.toList)] := by
    rw [arguments, arguments_ofCompiler, linkerArguments_eq_singleton (f := ⟨some c, some l⟩) hl]
    rfl
  rw [display, harguments, String.intercalate_append_of_ne_nil hcompiler (by simp)]
  simp [display]

/-- Displaying brings compiler flags into a normal form: it leaves alone exactly the texts that are
words with single spaces between them, it keeps the arguments, and it makes two texts equal exactly
if they give the same arguments. Linker flags follow behind one space. -/
theorem display_normalForm (c : String) :
    ((ofCompiler c).display = c ↔ ∃ ts, (∀ t ∈ ts, IsWord t) ∧ c = " ".intercalate ts) ∧
    (∀ linker, (Flags.mk (some (ofCompiler c).display) linker).arguments =
      (Flags.mk (some c) linker).arguments) ∧
    (ofCompiler (ofCompiler c).display).display = (ofCompiler c).display ∧
    (∀ c', (ofCompiler c).display = (ofCompiler c').display ↔
      (ofCompiler c).arguments = (ofCompiler c').arguments) ∧
    ∀ l : String, (∃ x ∈ c.toList, isBlank x = false) → (∃ x ∈ l.toList, isBlank x = false) →
      ∃ u m v, l = .ofList (u ++ m ++ v) ∧ (∀ x ∈ u, isBlank x) ∧ (∀ x ∈ v, isBlank x) ∧
        (∃ x ∈ m.head?, isBlank x = false) ∧ (∃ x ∈ m.getLast?, isBlank x = false) ∧
        (Flags.mk (some c) (some l)).display =
          (ofCompiler c).display ++ " " ++ ("-Clink-args=" ++ .ofList m) := by
  refine ⟨display_eq_self_iff, arguments_display c, ?_, fun c' ↦ display_eq_iff, ?_⟩
  · exact display_eq_iff.2 (arguments_display c none)
  · intro l hc hl
    have htrim : trim l.toList ≠ [] := by
      obtain ⟨x, hx, hb⟩ := hl
      intro h
      have hblank := trim_eq_nil_iff.1 h x hx
      rw [hb] at hblank
      contradiction
    obtain ⟨u, v, hu, hv, he⟩ := eq_append_trim l.toList
    refine ⟨u, trim l.toList, v, ?_, hu, hv, head?_trim htrim, getLast?_trim htrim,
      display_append_linker hc htrim⟩
    rw [← he, String.ofList_toList]

theorem display_normalForm_blank_runs :
    let c := "-C  lto\t"
    let l := "\n-x -y "
    (∃ x ∈ c.toList, isBlank x = false) ∧ (∃ x ∈ l.toList, isBlank x = false) ∧
      ∃ m : List Char, (Flags.mk (some c) (some l)).display =
        "-C lto" ++ " " ++ ("-Clink-args=" ++ .ofList m) := by
  intro c l
  have hc : ∃ x ∈ c.toList, isBlank x = false := ⟨'-', by decide, by decide⟩
  have hl : ∃ x ∈ l.toList, isBlank x = false := ⟨'-', by decide, by decide⟩
  have hdisplay : (ofCompiler c).display = "-C lto" := by decide
  obtain ⟨u, m, v, -, -, -, -, -, hm⟩ := (display_normalForm c).2.2.2.2 l hc hl
  rw [hdisplay] at hm
  exact ⟨hc, hl, m, hm⟩

end BootMedia.Flags
