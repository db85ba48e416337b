import BootMedia.Flags
import BootMedia.Proofs.Text.Spacing

namespace BootMedia.Flags

open Text

variable {f : Flags}

theorem linkerArguments_eq_nil (h : trim (f.linker.getD "").toList = []) :
    f.linkerArguments = [] := by
  simp [linkerArguments, h]

theorem linkerArguments_eq_singleton (h : trim (f.linker.getD "").toList ≠ []) :
    f.linkerArguments = [linkerLead ++ .ofList (trim (f.linker.getD "").toList)] := by
  unfold linkerArguments
  split
  · contradiction
  · rfl

theorem linkerArguments_eq_nil_iff :
    f.linkerArguments = [] ↔ f.linker = none ∨ ∃ t ∈ f.linker, ∀ c ∈ t.toList, isBlank c := by
  have hnil : f.linkerArguments = [] ↔ trim (f.linker.getD "").toList = [] := by
    refine ⟨fun h ↦ ?_, linkerArguments_eq_nil⟩
    by_contra ht
    simp [linkerArguments_eq_singleton ht] at h
  rw [hnil, trim_eq_nil_iff]
  cases f.linker <;> simp

theorem exists_linker_eq (h : f.linkerArguments ≠ []) :
    ∃ u m v, f.linker = some (.ofList (u ++ m ++ v)) ∧
      (∀ c ∈ u, isBlank c) ∧ (∀ c ∈ v, isBlank c) ∧
      (∃ c ∈ m.head?, isBlank c = false) ∧ (∃ c ∈ m.getLast?, isBlank c = false) ∧
      f.linkerArguments = [linkerLead ++ .ofList m] := by
  have ht : trim (f.linker.getD "").toList ≠ [] := mt linkerArguments_eq_nil h
  obtain ⟨u, v, hu, hv, he⟩ := eq_append_trim (f.linker.getD "").toList
  refine ⟨u, _, v, ?_, hu, hv, head?_trim ht, getLast?_trim ht, linkerArguments_eq_singleton ht⟩
  rw [← he]
  cases hl : f.linker with
  | none => simp [hl, trim] at ht
  | some t => simp

/-- What the arguments are: the words of the compiler flags, which can be cut into blanks and words
in one way, and after them the linker flags as one argument, if they are more than blanks. No
character of a compiler flag is lost, doubled or moved. -/
theorem arguments_eq_words_append (f : Flags) :
    ∃ (s : Spacing) (ls : List String), s.text = (f.compiler.getD "").toList ∧
      (∀ s' : Spacing, s'.text = (f.compiler.getD "").toList → s' = s) ∧
      f.arguments = s.words.map .ofList ++ ls ∧
      s.words.flatten = (f.compiler.getD "").toList.filter (!isBlank ·) ∧
      (ls = [] ↔ f.linker = none ∨ ∃ t ∈ f.linker, ∀ c ∈ t.toList, isBlank c) ∧
      (ls ≠ [] → ∃ u m v, f.linker = some (.ofList (u ++ m ++ v)) ∧
        (∀ c ∈ u, isBlank c) ∧ (∀ c ∈ v, isBlank c) ∧
        (∃ c ∈ m.head?, isBlank c = false) ∧ (∃ c ∈ m.getLast?, isBlank c = false) ∧
        ls = ["-Clink-args=" ++ .ofList m]) := by
  obtain ⟨s, hs⟩ := Spacing.exists_text_eq (f.compiler.getD "").toList
  have hwords : words (f.compiler.getD "").toList = s.words := by rw [← hs, s.words_text]
  refine ⟨s, f.linkerArguments, hs, ?_, ?_, ?_, linkerArguments_eq_nil_iff, exists_linker_eq⟩
  · intro s' hs'
    apply Spacing.text_injective
    rw [hs, hs']
  · rw [arguments, compilerArguments, hwords]
  · rw [← hwords, flatten_words]

example : arguments ⟨some "\u3000-C  lto\t", some "\n-x -y "⟩ =
    ["-C", "lto", "-Clink-args=-x -y"] :=
  rfl

theorem intercalate_ne_empty (s : String) {a : String} (ha : a ≠ "") (arguments : List String) :
    s.intercalate (a :: arguments) ≠ "" := by
  cases arguments with
  | nil => simpa using ha
  | cons b arguments => simp [String.intercalate_cons_cons, ha]

theorem decode_intercalate {arguments : List String} (h : ∀ a ∈ arguments, a ≠ "") :
    decode ((String.singleton separator).intercalate arguments) = arguments ↔
      ∀ a ∈ arguments, separator ∉ a.toList := by
  cases arguments with
  | nil => simp [decode]
  | cons a arguments =>
    have hne := intercalate_ne_empty (.singleton separator) (h a List.mem_cons_self) arguments
    generalize he : a :: arguments = all at *
    have hall : all.map String.toList ≠ [] := by simp [← he]
    rw [decode, if_neg (by simpa using hne)]
    constructor
    · -- every argument is now a piece of the cut text
      intro hd b hb
      rw [← hd] at hb
      obtain ⟨w, hw, rfl⟩ := List.mem_map.1 hb
      simpa using not_mem_of_mem_splitOn hw
    · intro hs
      rw [String.toList_intercalate, String.toList_singleton,
        List.splitOn_intercalate _ (by simpa using hs) hall]
      simp

theorem isBlank_separator : isBlank separator = false := by decide

theorem separator_mem_compilerArguments :
    (∃ a ∈ f.compilerArguments, separator ∈ a.toList) ↔
      ∃ s ∈ f.compiler, separator ∈ s.toList := by
  have h : (∃ w ∈ words (f.compiler.getD "").toList, separator ∈ w) ↔
      separator ∈ (f.compiler.getD "").toList := exists_mem_words isBlank_separator
  have hc : separator ∈ (f.compiler.getD "").toList ↔ ∃ s ∈ f.compiler, separator ∈ s.toList := by
    cases f.compiler <;> simp
  rw [← hc, ← h]
  simp [compilerArguments]

theorem separator_mem_linkerArguments :
    (∃ a ∈ f.linkerArguments, separator ∈ a.toList) ↔ ∃ s ∈ f.linker, separator ∈ s.toList := by
  have hl : (∃ a ∈ f.linkerArguments, separator ∈ a.toList) ↔
      separator ∈ trim (f.linker.getD "").toList := by
    by_cases h : trim (f.linker.getD "").toList = []
    · simp [linkerArguments_eq_nil h, h]
    · have hlead : separator ∉ linkerLead.toList := by decide
      simp [linkerArguments_eq_singleton h, hlead]
  rw [hl, mem_trim isBlank_separator]
  cases f.linker <;> simp

theorem ne_empty_of_mem_arguments {a : String} (h : a ∈ f.arguments) : a ≠ "" := by
  rcases List.mem_append.1 h with h | h
  · obtain ⟨w, hw, rfl⟩ := List.mem_map.1 h
    simpa using words_ne_nil hw
  · by_cases ht : trim (f.linker.getD "").toList = []
    · simp [linkerArguments_eq_nil ht] at h
    · rw [linkerArguments_eq_singleton ht, List.mem_singleton] at h
      simp [h, linkerLead]

theorem separator_not_mem_arguments :
    (∀ a ∈ f.arguments, separator ∉ a.toList) ↔
      (∀ s ∈ f.compiler, separator ∉ s.toList) ∧ ∀ s ∈ f.linker, separator ∉ s.toList := by
  have hc := not_congr (separator_mem_compilerArguments (f := f))
  have hl := not_congr (separator_mem_linkerArguments (f := f))
  simp only [not_exists, not_and] at hc hl
  rw [← hc, ← hl, arguments, List.forall_mem_append]

/-- The toolchain reads back the arguments that were encoded exactly when neither flag value holds
the separator. Then linker flags stay one argument, with the white space inside them. -/
theorem decode_encode (f : Flags) :
    (decode f.encode = f.arguments ↔
      (∀ s ∈ f.compiler, separator ∉ s.toList) ∧ ∀ s ∈ f.linker, separator ∉ s.toList) ∧
    ∀ u m v : List Char, f.linker = some (.ofList (u ++ m ++ v)) →
      (∀ c ∈ u, isBlank c) → (∀ c ∈ v, isBlank c) →
      (∃ c ∈ m.head?, isBlank c = false) → (∃ c ∈ m.getLast?, isBlank c = false) →
      (∀ s ∈ f.compiler, separator ∉ s.toList) → separator ∉ m →
      decode f.encode = f.compilerArguments ++ [linkerLead ++ .ofList m] := by
  have hd : decode f.encode = f.arguments ↔ _ :=
    (decode_intercalate fun a ↦ ne_empty_of_mem_arguments).trans separator_not_mem_arguments
  refine ⟨hd, fun u m v hl hu hv hm hm' hc hs ↦ ?_⟩
  have ht : trim (f.linker.getD "").toList = m := by
    rw [hl]
    simpa using trim_append hu hv hm hm'
  have hne : trim (f.linker.getD "").toList ≠ [] := by
    rintro h
    rw [ht] at h
    simp [h] at hm
  have hsep : separator ∉ u ++ m ++ v := by
    rw [← mem_trim isBlank_separator, trim_append hu hv hm hm']
    exact hs
  rw [hd.2 ⟨hc, by simpa [hl] using hsep⟩, arguments, linkerArguments_eq_singleton hne, ht]

theorem decode_encode_multi_word_linker :
    let f : Flags := ⟨some "-C opt-level=3", some " -Map=iron.map\t--gc-sections "⟩
    decode f.encode = ["-C", "opt-level=3", "-Clink-args=-Map=iron.map\t--gc-sections"] :=
  have hc : ∀ s ∈ some "-C opt-level=3", separator ∉ s.toList := by
    rintro s ⟨⟩
    decide
  have hb : ∀ c ∈ [' '], isBlank c := by
    rw [List.forall_mem_singleton]
    rfl
  ((decode_encode _).2 [' '] "-Map=iron.map\t--gc-sections".toList [' '] rfl hb hb
    ⟨'-', rfl, rfl⟩ ⟨'s', rfl, rfl⟩ hc (by decide)).trans rfl

end BootMedia.Flags
