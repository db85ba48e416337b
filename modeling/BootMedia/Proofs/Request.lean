import BootMedia.Request

namespace BootMedia

/-- The failure that reports the first unsupported one of three names. -/
inductive Unsupported (action architecture configuration : String) : Failure → Prop
  | action : action ∉ Choice.supported Action →
      Unsupported action architecture configuration
        (.unsupported "action" action (Choice.supported Action))
  | architecture : action ∈ Choice.supported Action →
      architecture ∉ Choice.supported Architecture →
      Unsupported action architecture configuration
        (.unsupported "architecture" architecture (Choice.supported Architecture))
  | configuration : action ∈ Choice.supported Action →
      architecture ∈ Choice.supported Architecture →
      configuration ∉ Choice.supported Configuration →
      Unsupported action architecture configuration
        (.unsupported "configuration" configuration (Choice.supported Configuration))

theorem exists_unsupported {action architecture configuration : String}
    (h : ¬(action ∈ Choice.supported Action ∧ architecture ∈ Choice.supported Architecture ∧
      configuration ∈ Choice.supported Configuration)) :
    ∃ f, Unsupported action architecture configuration f := by
  by_cases ha : action ∈ Choice.supported Action
  · by_cases hb : architecture ∈ Choice.supported Architecture
    · exact ⟨_, .configuration ha hb fun hc ↦ h ⟨ha, hb, hc⟩⟩
    · exact ⟨_, .architecture ha hb⟩
  · exact ⟨_, .action ha⟩

theorem Choice.mem_supported {α : Type} [Choice α] {s : String} :
    s ∈ supported α ↔ ∃ a : α, parse s = .ok a := by
  simp only [parse_eq_ok_iff, supported, List.mem_map]
  exact ⟨fun ⟨a, _, h⟩ ↦ ⟨a, h⟩, fun ⟨a, h⟩ ↦ ⟨a, complete a, h⟩⟩

theorem Choice.parse_of_not_mem {α : Type} [Choice α] {s : String} (h : s ∉ supported α) :
    (parse s : Except Failure α) = .error (.unsupported (kind α) s (supported α)) :=
  parse_eq_error_iff.2 ⟨h, rfl⟩

variable {action architecture configuration : String} {flags : Flags} {l : Layout} {f : Failure}

theorem Request.ofNames_of_unsupported (h : Unsupported action architecture configuration f) :
    Request.ofNames action architecture configuration flags l = .error f := by
  cases h with
  | action ha =>
    rw [ofNames, Choice.parse_of_not_mem ha]
    rfl
  | architecture ha hb =>
    obtain ⟨a, ha⟩ := Choice.mem_supported.1 ha
    rw [ofNames, ha, Target.ofNames, Choice.parse_of_not_mem hb]
    rfl
  | configuration ha hb hc =>
    obtain ⟨a, ha⟩ := Choice.mem_supported.1 ha
    obtain ⟨b, hb⟩ := Choice.mem_supported.1 hb
    rw [ofNames, ha, Target.ofNames, hb, Choice.parse_of_not_mem hc]
    rfl

theorem Request.ofNames_of_supported (ha : action ∈ Choice.supported Action)
    (hb : architecture ∈ Choice.supported Architecture)
    (hc : configuration ∈ Choice.supported Configuration) :
    ∃ r, Request.ofNames action architecture configuration flags l = .ok r ∧
      r.action.name = action ∧ r.target.architecture.name = architecture ∧
      r.target.configuration.name = configuration ∧ r.target.layout = l ∧ r.flags = flags := by
  obtain ⟨a, ha⟩ := Choice.mem_supported.1 ha
  obtain ⟨b, hb⟩ := Choice.mem_supported.1 hb
  obtain ⟨c, hc⟩ := Choice.mem_supported.1 hc
  refine ⟨⟨a, ⟨b, c, l⟩, flags⟩, ?_, Choice.parse_eq_ok_iff.1 ha, Choice.parse_eq_ok_iff.1 hb,
    Choice.parse_eq_ok_iff.1 hc, rfl, rfl⟩
  rw [ofNames, ha, Target.ofNames, hb, hc]
  rfl

theorem Request.layout_of_ofNames {r : Request}
    (h : Request.ofNames action architecture configuration flags l = .ok r) :
    r.target.layout = l := by
  by_cases hs : action ∈ Choice.supported Action ∧
      architecture ∈ Choice.supported Architecture ∧ configuration ∈ Choice.supported Configuration
  · obtain ⟨ha, hb, hc⟩ := hs
    obtain ⟨r', hr', -, -, -, hl, -⟩ :=
      @Request.ofNames_of_supported action architecture configuration flags l ha hb hc
    rw [h] at hr'
    cases hr'
    exact hl
  · obtain ⟨f, hf⟩ := exists_unsupported hs
    rw [Request.ofNames_of_unsupported hf] at h
    cases h

end BootMedia
