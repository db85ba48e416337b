import BootMedia.Proofs.Request
import BootMedia.Proofs.Text.Spacing
import Mathlib.Logic.Function.Basic

namespace BootMedia

inductive NameKind where
  | action
  | architecture
  | configuration
deriving DecidableEq

namespace NameKind

def text : NameKind → String
  | action => "action"
  | architecture => "architecture"
  | configuration => "configuration"

def earlier : NameKind → List NameKind
  | action => []
  | architecture => [action]
  | configuration => [action, architecture]

def supported : NameKind → List String
  | action => Choice.supported Action
  | architecture => Choice.supported Architecture
  | configuration => Choice.supported Configuration

theorem text_injective {k k' : NameKind} (h : k.text = k'.text) : k = k' := by
  revert h
  cases k <;> cases k' <;> decide

theorem not_mem_earlier (k : NameKind) : k ∉ k.earlier := by
  cases k <;> decide

theorem space_not_mem_text (k : NameKind) : ' ' ∉ k.text.toList := by
  cases k <;> decide

theorem message_unsupported (k : NameKind) (value : String) :
    (Failure.unsupported k.text value k.supported).message =
      "Unknown " ++ k.text ++ " '" ++ value ++ "'\nSupported " ++ k.text ++ "s: " ++
        ", ".intercalate k.supported := rfl

/-- What is reported of a name tells its kind and the name itself, whatever characters it holds. -/
theorem message_injective {k k' : NameKind} {value value' : String}
    (h : (Failure.unsupported k.text value k.supported).message =
      (Failure.unsupported k'.text value' k'.supported).message) : k = k' ∧ value = value' := by
  rw [message_unsupported, message_unsupported] at h
  have hlists := congrArg String.toList h
  simp only [String.toList_append, List.append_assoc, List.append_cancel_left_eq] at hlists
  have hsolid (k : NameKind) : ∀ c ∈ k.text.toList, decide (c ≠ ' ') = true :=
    fun c hc ↦ decide_eq_true fun hspace ↦ k.space_not_mem_text (hspace ▸ hc)
  -- The kind ends at the first space; with it the list is the same, and the rest can be cancelled.
  obtain ⟨htext, hrest⟩ := Text.Spacing.append_inj_of_all (q := (· ≠ ' '))
    (hsolid k) (hsolid k') (by simp) (by simp) hlists
  obtain rfl := text_injective (String.toList_injective htext)
  refine ⟨rfl, String.toList_injective ?_⟩
  simpa only [List.append_cancel_left_eq, List.append_cancel_right_eq] using hrest

end NameKind

namespace Request

variable {names : NameKind → String} {k : NameKind} {flags : Flags} {l : Layout} {f : Failure}

def named (names : NameKind → String) (flags : Flags) (l : Layout) : Except Failure Request :=
  ofNames (names .action) (names .architecture) (names .configuration) flags l

/-- The name of this kind is not supported, and those looked at before are. -/
def FirstUnsupported (names : NameKind → String) (k : NameKind) : Prop :=
  names k ∉ k.supported ∧ ∀ j ∈ k.earlier, names j ∈ j.supported

theorem FirstUnsupported.unsupported (h : FirstUnsupported names k) :
    Unsupported (names .action) (names .architecture) (names .configuration)
      (.unsupported k.text (names k) k.supported) := by
  obtain ⟨hk, hearlier⟩ := h
  cases k with
  | action => exact .action hk
  | architecture => exact .architecture (hearlier .action (by decide)) hk
  | configuration =>
    exact .configuration (hearlier .action (by decide)) (hearlier .architecture (by decide)) hk

theorem exists_firstUnsupported
    (h : Unsupported (names .action) (names .architecture) (names .configuration) f) :
    ∃ k, FirstUnsupported names k ∧ f = .unsupported k.text (names k) k.supported := by
  cases h with
  | action ha => exact ⟨.action, ⟨ha, nofun⟩, rfl⟩
  | architecture ha hb =>
    exact ⟨.architecture, ⟨hb, by simpa [NameKind.earlier, NameKind.supported] using ha⟩, rfl⟩
  | configuration ha hb hc =>
    have hearlier : ∀ j ∈ NameKind.configuration.earlier, names j ∈ j.supported := by
      simpa [NameKind.earlier, NameKind.supported] using ⟨ha, hb⟩
    exact ⟨.configuration, ⟨hc, hearlier⟩, rfl⟩

theorem named_cases (names : NameKind → String) (flags : Flags) (l : Layout) :
    (∃ r, named names flags l = .ok r ∧ r.action.name = names .action ∧
      r.target.architecture.name = names .architecture ∧
      r.target.configuration.name = names .configuration ∧ r.target.layout = l ∧
      r.flags = flags) ∨
    ∃ k, FirstUnsupported names k ∧
      named names flags l = .error (.unsupported k.text (names k) k.supported) := by
  by_cases hs : names .action ∈ Choice.supported Action ∧
      names .architecture ∈ Choice.supported Architecture ∧
      names .configuration ∈ Choice.supported Configuration
  · obtain ⟨ha, hb, hc⟩ := hs
    exact .inl (ofNames_of_supported ha hb hc)
  · obtain ⟨f, hf⟩ := exists_unsupported hs
    obtain ⟨k, hk, rfl⟩ := exists_firstUnsupported hf
    exact .inr ⟨k, hk, ofNames_of_unsupported hf⟩

theorem named_eq_error_iff :
    named names flags l = .error f ↔
      ∃ k, FirstUnsupported names k ∧ f = .unsupported k.text (names k) k.supported := by
  constructor
  · intro h
    rcases named_cases names flags l with ⟨r, hr, -⟩ | ⟨k, hk, herror⟩
    · rw [hr] at h
      cases h
    · rw [herror] at h
      cases h
      exact ⟨k, hk, rfl⟩
  · rintro ⟨k, hk, rfl⟩
    exact ofNames_of_unsupported hk.unsupported

theorem mem_supported_iff (h : FirstUnsupported names k) (s : String) :
    s ∈ k.supported ↔ ∀ value list,
      named (Function.update names k s) flags l ≠ .error (.unsupported k.text value list) := by
  constructor
  · intro hs value list herror
    obtain ⟨k', ⟨hk', -⟩, hf⟩ := named_eq_error_iff.1 herror
    obtain rfl : k = k' := NameKind.text_injective (Failure.unsupported.inj hf).1
    rw [Function.update_self] at hk'
    exact hk' hs
  · intro haccepted
    by_contra hs
    have hfirst : FirstUnsupported (Function.update names k s) k := by
      refine ⟨by rwa [Function.update_self], fun j hj ↦ ?_⟩
      have hne : j ≠ k := ne_of_mem_of_not_mem hj k.not_mem_earlier
      rw [Function.update_of_ne hne]
      exact h.2 j hj
    exact haccepted _ _ (named_eq_error_iff.2 ⟨k, hfirst, rfl⟩)

theorem named_eq_ok_iff {r : Request} :
    named names flags l = .ok r ↔
      r.action.name = names .action ∧ r.target.architecture.name = names .architecture ∧
        r.target.configuration.name = names .configuration ∧ r.flags = flags ∧
        r.target = ⟨r.target.architecture, r.target.configuration, l⟩ := by
  constructor
  · intro h
    rcases named_cases names flags l with
      ⟨r', hr', haction, harchitecture, hconfiguration, hl, hflags⟩ | ⟨k, hk, herror⟩
    · rw [hr'] at h
      cases h
      refine ⟨haction, harchitecture, hconfiguration, hflags, ?_⟩
      rw [← hl]
    · rw [herror] at h
      cases h
  · obtain ⟨action, ⟨architecture, configuration, layout⟩, flags'⟩ := r
    rintro ⟨haction, harchitecture, hconfiguration, rfl, ht⟩
    obtain rfl : layout = l := congrArg Target.layout ht
    rw [named, ofNames, Choice.parse_eq_ok_iff.2 haction, Target.ofNames,
      Choice.parse_eq_ok_iff.2 harchitecture, Choice.parse_eq_ok_iff.2 hconfiguration]
    rfl

theorem exists_named_eq_ok_iff :
    (∃ r, named names flags l = .ok r) ↔
      (∃ a ∈ (Choice.all : List Action), a.name = names .action) ∧
      (∃ a ∈ (Choice.all : List Architecture), a.name = names .architecture) ∧
      ∃ c ∈ (Choice.all : List Configuration), c.name = names .configuration := by
  constructor
  · rintro ⟨r, hr⟩
    obtain ⟨haction, harchitecture, hconfiguration, -, -⟩ := named_eq_ok_iff.1 hr
    exact ⟨⟨_, Choice.complete _, haction⟩, ⟨_, Choice.complete _, harchitecture⟩,
      ⟨_, Choice.complete _, hconfiguration⟩⟩
  · rintro ⟨⟨a, -, ha⟩, ⟨b, -, hb⟩, ⟨c, -, hc⟩⟩
    exact ⟨⟨a, ⟨b, c, l⟩, flags⟩, named_eq_ok_iff.2 ⟨ha, hb, hc, rfl, rfl⟩⟩

/-- For any three names, flags and layout. There is a request exactly if each name is that of one of
the listed values, and it consists of these values, the flags and the layout. Otherwise the first
name that is not is reported as it stands, with the names that would not be refused in its place. -/
theorem ofNames_exact (names : NameKind → String) (flags : Flags) (l : Layout) :
    let result := ofNames (names .action) (names .architecture) (names .configuration) flags l
    ((∃ r, result = .ok r) ↔
      (∃ a ∈ (Choice.all : List Action), a.name = names .action) ∧
      (∃ a ∈ (Choice.all : List Architecture), a.name = names .architecture) ∧
      ∃ c ∈ (Choice.all : List Configuration), c.name = names .configuration) ∧
    (∀ r, result = .ok r ↔
      r.action.name = names .action ∧ r.target.architecture.name = names .architecture ∧
        r.target.configuration.name = names .configuration ∧ r.flags = flags ∧
        r.target = ⟨r.target.architecture, r.target.configuration, l⟩) ∧
    (∀ f, result = .error f ↔
      ∃ k, FirstUnsupported names k ∧ f = .unsupported k.text (names k) k.supported) ∧
    ∀ k, FirstUnsupported names k → ∀ s, s ∈ k.supported ↔ ∀ value list,
      named (Function.update names k s) flags l ≠ .error (.unsupported k.text value list) :=
  ⟨exists_named_eq_ok_iff, fun _ ↦ named_eq_ok_iff, fun _ ↦ named_eq_error_iff,
    fun _ hk ↦ mem_supported_iff hk⟩

theorem ofNames_exact_two_unsupported :
    let names : NameKind → String
      | .action => "build"
      | .architecture => "arm"
      | .configuration => "fast"
    FirstUnsupported names .architecture ∧
      ofNames "build" "arm" "fast" ⟨none, none⟩ ⟨⟨"/ws"⟩⟩ =
        .error (.unsupported "architecture" "arm" ["x86", "x64", "aa64"]) ∧
      ∀ value list, named (Function.update names .architecture "x64") ⟨none, none⟩ ⟨⟨"/ws"⟩⟩ ≠
        .error (.unsupported "architecture" value list) := by
  intro names
  have hfirst : FirstUnsupported names .architecture := by
    refine ⟨by decide, fun j hj ↦ ?_⟩
    obtain rfl := List.mem_singleton.1 hj
    decide
  obtain ⟨-, -, herror, haccepted⟩ := ofNames_exact names ⟨none, none⟩ ⟨⟨"/ws"⟩⟩
  exact ⟨hfirst, (herror _).2 ⟨.architecture, hfirst, rfl⟩,
    (haccepted .architecture hfirst "x64").1 (by decide)⟩

end Request

end BootMedia
