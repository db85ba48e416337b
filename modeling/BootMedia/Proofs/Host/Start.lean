import BootMedia.Host.Start
import BootMedia.Proofs.FileSystem.Effect
import BootMedia.Proofs.Host.Search

namespace BootMedia

open FileSystem Text.Octets

namespace Host

variable {launch : Launcher} {c : Command} {u : Startup} {w : World} {s : String}
  {fs inside : FileSystem} {e : Environment}

theorem nodes_enter {directory : Option Path} (h : enter fs directory = .ok inside) :
    inside.nodes = fs.nodes := by
  cases directory with
  | none =>
    cases h
    rfl
  | some d =>
    obtain ⟨i, -, h⟩ := bind_eq_ok h
    cases h
    rfl

theorem openProgram_of_isExecutable {p : Path} (h : fs.isExecutable p) :
    ∃ f, openProgram fs p = .ok f := by
  obtain ⟨i, f, hi, hf, hx⟩ := isExecutable_iff.1 h
  refine ⟨f, ?_⟩
  rw [openProgram, bind_of_ok hi, hf]
  exact if_pos hx

theorem openProgram_of_not_isExecutable {p : Path} (h : ¬fs.isExecutable p) :
    ∃ e, openProgram fs p = .error e ∧ (e = .accessDenied ∨ fs.resolve p = .error e) := by
  rw [isExecutable_iff] at h
  cases hi : fs.resolve p with
  | error e =>
    rw [openProgram, hi]
    exact ⟨e, rfl, .inr rfl⟩
  | ok i =>
    refine ⟨.accessDenied, ?_, .inl rfl⟩
    rw [openProgram, bind_of_ok hi]
    cases hf : fs.fileAt? i with
    | none => rfl
    | some f => exact if_neg fun hx ↦ h ⟨i, f, hi, hf, hx⟩

theorem startWith_of_isExecutable (hfits : isOversized c = false) (hlate : findsLate c = false)
    (h : w.files.isExecutable ⟨s⟩) : startWith launch c u w (ofText s) = launch ⟨s⟩ u w := by
  obtain ⟨f, hf⟩ := openProgram_of_isExecutable h
  rw [startWith, pathOf_ofText, hf, hfits, hlate]
  rfl

theorem startWith_of_not_isExecutable (h : ¬w.files.isExecutable ⟨s⟩)
    (hpass : ∀ e, w.files.resolve ⟨s⟩ = .error e → IsPassed e) :
    ∃ e, startWith launch c u w (ofText s) = .error e ∧ IsPassed e := by
  obtain ⟨e, he, hcause⟩ := openProgram_of_not_isExecutable h
  refine ⟨e, ?_, ?_⟩
  · rw [startWith, pathOf_ofText, he]
    rfl
  · rcases hcause with rfl | hcause
    · exact .inl rfl
    · exact hpass e hcause

def world (inside : FileSystem) : World :=
  { World.start inside with lastProcess := ownProcess + 1 }

/-- How the start of a command ends is how the search for its program does. -/
theorem map_termination_start {searchPath : String} (launch : Launcher)
    (haccepted : c.isRefused = false) (henter : enter fs c.directory = .ok inside)
    (hpath : (c.childEnvironment e).get? searchPathVariable = some searchPath) :
    (start launch e c fs).map (·.termination) =
      (startFound (startWith launch c (startup c e) (world inside)) (some (ofText searchPath))
        (ofText c.program)).map Prod.fst := by
  have haccepted' : ¬c.isRefused := by simp [haccepted]
  rw [start, if_neg haccepted', bind_of_ok henter, hpath]
  change Except.map _ (startFound (startWith launch c (startup c e) (world inside))
    (some (ofText searchPath)) (ofText c.program) >>= _) = _
  cases startFound (startWith launch c (startup c e) (world inside)) (some (ofText searchPath))
    (ofText c.program) <;> rfl

theorem result_runner_of_error {spawn : Spawner} {i : Invocation} {err : SystemError}
    (h : (spawn i.toCommand fs).map (·.termination) = .error err) :
    (runner spawn i fs).result = .error (.spawn i.program err) := by
  rw [runner]
  cases hspawn : spawn i.toCommand fs with
  | error err' =>
    rw [hspawn] at h
    cases h
    rfl
  | ok child =>
    rw [hspawn] at h
    cases h

end Host

end BootMedia
