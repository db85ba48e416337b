import BootMedia.CommandLine.Run
import BootMedia.Host.Start
import BootMedia.Proofs.Pipeline
import BootMedia.Proofs.Request.Names

namespace BootMedia.CommandLine

variable {s : Session} {f : Failure}

def Outcome.Idle (o : Outcome) (fs : FileSystem) : Prop :=
  o.session.spawned = [] ∧ o.session.files = fs

theorem idle_stop (styled : Bool) (fs : FileSystem) (reason : Stop) :
    (stop styled (.start fs) reason).Idle fs := by
  cases reason <;> exact ⟨rfl, rfl⟩

theorem status_stop (styled : Bool) (s : Session) (reason : Stop) :
    (stop styled s reason).status = if reason = .help ∨ reason = .version then 0 else 2 := by
  cases reason with
  | usage e => simp only [stop, Outcome.of, reduceCtorEq, or_self, if_false]; rfl
  | _ => rfl

theorem fail_status (s : Session) (f : Failure) : (fail s f).status = statusByte f.exitCode := by
  cases f <;> rfl

theorem fail_files (s : Session) (f : Failure) : (fail s f).session.files = s.files := by
  cases f <;> rfl

theorem fail_spawned (s : Session) (f : Failure) : (fail s f).session.spawned = s.spawned := by
  cases f <;> rfl

theorem carryOut_eq (runner : Runner) (s : Session) (r : Request) (l : Layout) :
    let c := r.conclude runner l (runner (r.invocation l) s.files)
    let o := carryOut runner s r l
    o.status = (match c.1 with | .ok () => 0 | .error f => statusByte f.exitCode) ∧
      o.session.files = c.2 ∧ o.session.spawned = s.spawned ++ [r.invocation l] := by
  obtain ⟨hc, hs, -⟩ := perform_execute runner r l s
  rw [← hc, ← hs]
  dsimp only
  rw [carryOut]
  rcases (execute r l).perform runner s with ⟨f | a, s'⟩
  · exact ⟨fail_status s' f, fail_files s' f, fail_spawned s' f⟩
  · exact ⟨rfl, rfl, rfl⟩

theorem carryOut_status (spawn : Host.Spawner) (fs : FileSystem) (r : Request) (l : Layout) :
    let o := carryOut (Host.runner spawn) (.start fs) r l
    o.session.spawned = [r.invocation l] ∧
      match spawn (r.invocation l).toCommand fs with
      | .error _ => o.status = 1 ∧ o.session.files = fs
      | .ok child =>
        let code := child.termination.exitCode
        let published := (publish r.target.artifact r.target l).perform (Host.runner spawn)
          (.start child.files)
        (code ≠ 0 → (o.status.toNat : Int) = code ∧ o.session.files = child.files) ∧
        (code = 0 → r.action = .run → o.status = 0 ∧ o.session.files = child.files) ∧
        (code = 0 → r.action = .build →
          o.status = (if published.1.isOk then 0 else 1) ∧
          o.session.files = published.2.files) := by
  obtain ⟨hs, hf, hp⟩ := carryOut_eq (Host.runner spawn) (.start fs) r l
  refine ⟨hp, ?_⟩
  rw [hs, hf, show (Session.start fs).files = fs from rfl, Host.runner]
  cases spawn (r.invocation l).toCommand fs with
  | error e => exact ⟨rfl, rfl⟩
  | ok child =>
    simp only [Request.conclude]
    refine ⟨fun hc ↦ ?_, fun hc ha ↦ ?_, fun hc ha ↦ ?_⟩
    · have he : (r.failure child.termination.exitCode).exitCode = child.termination.exitCode := by
        unfold Request.failure
        cases r.action <;> rfl
      simp only [hc, if_false, he, child.termination.toNat_statusByte_exitCode, and_self]
    · simp only [hc, ha, if_true, and_self]
    · simp only [hc, ha, if_true]
      cases hr : ((publish r.target.artifact r.target l).perform (Host.runner spawn)
        (.start child.files)).1 with
      | ok p => exact ⟨rfl, trivial⟩
      | error f =>
        have hf := (filesOnly_publish r.target.artifact r.target l).failure hr
        simp only [Except.map, hf.exitCode]
        exact ⟨rfl, trivial⟩

theorem run_of_request (runner : Runner) (account : Path) (e : Environment) (fs : FileSystem)
    {arguments : List String} {a : Arguments} {r : Request} {l : Layout}
    (hp : parse arguments = .ok a)
    (hr : Request.ofNames a.action a.architecture a.configuration a.flags
      (Layout.ofEnvironment e (fs.pathOf fs.here)) = .ok r)
    (hl : l = Layout.ofEnvironment e (fs.pathOf fs.here)) :
    run runner account e fs arguments =
      let report := Preflight.report fs account e none r.target r.action l
      if report.isOk then carryOut runner (.start fs) r l else unprepared (.start fs) report := by
  simp only [run, hp, hr, hl]

/-- A run that is stopped at a name prints its kind, the name as it stands and the names that are
accepted in its place. No other name is answered like that. -/
theorem stdout_run_of_firstUnsupported (runner : Runner) (account : Path) (e : Environment)
    (fs : FileSystem) {arguments : List String} {names : NameKind → String} {flags : Flags}
    {k : NameKind} (hk : Request.FirstUnsupported names k)
    (hp : parse arguments =
      .ok ⟨names .action, names .architecture, names .configuration, flags⟩) :
    let stdout := (run runner account e fs arguments).session.stdout
    stdout = "Unknown " ++ k.text ++ " '" ++ names k ++ "'\nSupported " ++ k.text ++ "s: " ++
        ", ".intercalate k.supported ++ "\n" ∧
      ∀ k' value, stdout = (Failure.unsupported k'.text value k'.supported).message ++ "\n" →
        k' = k ∧ value = names k := by
  intro stdout
  have hrun : run runner account e fs arguments =
      fail (.start fs) (.unsupported k.text (names k) k.supported) := by
    simp only [run, hp, Request.ofNames_of_unsupported hk.unsupported]
  have hstdout : stdout = (Failure.unsupported k.text (names k) k.supported).message ++ "\n" := by
    simp only [stdout, hrun]
    exact String.empty_append
  refine ⟨hstdout.trans (by rw [k.message_unsupported]), fun k' value h ↦ ?_⟩
  exact NameKind.message_injective (String.append_left_inj _ |>.1 (h.symm.trans hstdout))

/-- Four gates in a row. A run that is stopped at one of the first three, by its arguments, by a
name or by a check, starts nothing and leaves the files alone. Behind them one program is started,
and its code is the status unless it is zero; then the status says whether what follows failed. -/
theorem run_outcome (spawn : Host.Spawner) (account : Path) (e : Environment) (fs : FileSystem)
    (arguments : List String) :
    let o := run (Host.runner spawn) account e fs arguments
    let l := Layout.ofEnvironment e (fs.pathOf fs.here)
    (∀ reason, parse arguments = .error reason →
      o.status = (if reason = .help ∨ reason = .version then 0 else 2) ∧ o.Idle fs) ∧
    ∀ a, parse arguments = .ok a →
      (¬(a.action ∈ Choice.supported Action ∧ a.architecture ∈ Choice.supported Architecture ∧
          a.configuration ∈ Choice.supported Configuration) →
        ∃ f, Unsupported a.action a.architecture a.configuration f ∧
          o.session.stdout = f.message ++ "\n" ∧ o.session.stderr = "" ∧ o.status = 1 ∧
          o.Idle fs) ∧
      (a.action ∈ Choice.supported Action ∧ a.architecture ∈ Choice.supported Architecture ∧
          a.configuration ∈ Choice.supported Configuration →
        ∃ r, Request.ofNames a.action a.architecture a.configuration a.flags l = .ok r ∧
          let report := Preflight.report fs account e none r.target r.action l
          (report.isOk = false →
            o.session.stdout = report.summary ∧
            o.session.stderr = "Error: preflight checks failed\n" ∧ o.status = 1 ∧ o.Idle fs) ∧
          (report.isOk = true →
            o.session.spawned = [r.invocation l] ∧
            match spawn (r.invocation l).toCommand fs with
            | .error _ => o.status = 1 ∧ o.session.files = fs
            | .ok child =>
              let code : Int :=
                match child.termination with
                | .exited status => status.toNat
                | .signalled signal => 128 + signal.val
              let published := (publish r.target.artifact r.target l).perform (Host.runner spawn)
                (.start child.files)
              (code ≠ 0 → (o.status.toNat : Int) = code ∧ o.session.files = child.files) ∧
              (code = 0 → r.action = .run → o.status = 0 ∧ o.session.files = child.files) ∧
              (code = 0 → r.action = .build →
                o.status = (if published.1.isOk then 0 else 1) ∧
                o.session.files = published.2.files))) := by
  intro o l
  refine ⟨fun reason hp ↦ ?_, fun a hp ↦ ⟨fun hn ↦ ?_, fun hn ↦ ?_⟩⟩
  · have ho : o = stop (isStyled e) (.start fs) reason := by simp only [o, run, hp]
    rw [ho]
    exact ⟨status_stop _ _ reason, idle_stop _ fs reason⟩
  · obtain ⟨f, hf⟩ := exists_unsupported hn
    have ho : o = fail (.start fs) f := by
      simp only [o, run, hp, Request.ofNames_of_unsupported hf]
    rw [ho]
    refine ⟨f, hf, ?_⟩
    cases hf <;> exact ⟨String.empty_append, rfl, rfl, rfl, rfl⟩
  · obtain ⟨ha, hb, hc⟩ := hn
    obtain ⟨r, hr, -⟩ := Request.ofNames_of_supported ha hb hc
    refine ⟨r, hr, fun hreport ↦ ?_, fun hreport ↦ ?_⟩
    · have ho : o = unprepared (.start fs)
          (Preflight.report fs account e none r.target r.action l) :=
        (run_of_request _ account e fs hp hr rfl).trans (if_neg (ne_true_of_eq_false hreport))
      rw [ho]
      exact ⟨String.empty_append, String.empty_append, rfl, rfl, rfl⟩
    · have ho : o = carryOut (Host.runner spawn) (.start fs) r l :=
        (run_of_request _ account e fs hp hr rfl).trans (if_pos hreport)
      rw [ho]
      exact carryOut_status spawn fs r l

theorem run_outcome_killed_toolchain :
    let fs : FileSystem :=
      ⟨#[.directory 0 [("cargo", 1)], .file ⟨.empty, 0o755, 0⟩], FileSystem.rootInode, 0⟩
    let killed : Host.Spawner := fun _ fs ↦ .ok ⟨.signalled ⟨9, by decide⟩, fs, "", "", 0⟩
    let run (path : Option String) :=
      run (Host.runner killed) ⟨""⟩ (Environment.empty.update searchPathVariable path) fs
    ((run (some "") ["build", "x64"]).status = 2 ∧ (run (some "") ["build", "x64"]).Idle fs) ∧
    ((run (some "") ["build", "arm", "fast"]).status = 1 ∧
      (run (some "") ["build", "arm", "fast"]).Idle fs) ∧
    ((run none ["build", "x64", "release"]).status = 1 ∧
      (run none ["build", "x64", "release"]).Idle fs) ∧
    ((run (some "") ["build", "x64", "release"]).status.toNat : Int) = 128 + 9 := by
  intro fs killed run
  refine ⟨(run_outcome killed ⟨""⟩ _ fs ["build", "x64"]).1 (.usage (.missing ["CONFIG"])) rfl,
    ?_, ?_, ?_⟩
  · obtain ⟨hn, -⟩ := (run_outcome killed ⟨""⟩
      (Environment.empty.update searchPathVariable (some "")) fs ["build", "arm", "fast"]).2
        ⟨"build", "arm", "fast", ⟨none, none⟩⟩ rfl
    obtain ⟨f, -, -, -, h⟩ := hn (by decide)
    exact h
  · obtain ⟨-, hs⟩ := (run_outcome killed ⟨""⟩ (Environment.empty.update searchPathVariable none) fs
      ["build", "x64", "release"]).2 ⟨"build", "x64", "release", ⟨none, none⟩⟩ rfl
    obtain ⟨r, hr, hfail, -⟩ := hs (by decide)
    cases hr
    exact (hfail (by decide)).2.2
  · obtain ⟨-, hs⟩ := (run_outcome killed ⟨""⟩
      (Environment.empty.update searchPathVariable (some "")) fs ["build", "x64", "release"]).2
        ⟨"build", "x64", "release", ⟨none, none⟩⟩ rfl
    obtain ⟨r, hr, -, hok⟩ := hs (by decide)
    cases hr
    exact ((hok (by decide)).2.1 (by decide)).1

end BootMedia.CommandLine
