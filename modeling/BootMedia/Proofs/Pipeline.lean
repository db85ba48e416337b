import BootMedia.Pipeline
import BootMedia.Proofs.Plan

namespace BootMedia

variable {runner : Runner} {s : Session}

def Failure.IsOfFiles : Failure → Prop
  | missingArtifact _ | file _ _ => True
  | _ => False

theorem Failure.IsOfFiles.exitCode {f : Failure} (h : f.IsOfFiles) : f.exitCode = 1 := by
  cases f <;> first | exact h.elim | rfl

theorem filesOnly_makeDirectories {P : Failure → Prop} (ps : List Path) :
    (Plan.makeDirectories ps).FilesOnly P := by
  induction ps with
  | nil => exact .ok _
  | cons p above ih =>
    rw [Plan.makeDirectories]
    refine (Plan.FilesOnly.attempt _).bind fun r ↦ ?_
    cases r with
    | ok a => exact .ok _
    | error fault =>
      dsimp only
      split
      · refine ih.bind fun r ↦ ?_
        cases r with
        | ok a => exact .attempt _
        | error fault => exact .ok _
      · exact .ok _

theorem filesOnly_publish (source : Path) (t : Target) (l : Layout) :
    (publish source t l).FilesOnly Failure.IsOfFiles := by
  have hfile : ∀ fault : Fault, fault.failure.IsOfFiles := fun _ ↦ trivial
  unfold publish
  refine (Plan.FilesOnly.require (fun _ ↦ trivial) _).bind fun _ ↦ ?_
  refine (filesOnly_makeDirectories _).bind fun r ↦ ?_
  cases r with
  | error fault => exact .error trivial
  | ok a =>
    refine (Plan.FilesOnly.require hfile _).bind fun _ ↦ ?_
    refine (Plan.FilesOnly.require hfile _).bind fun _ ↦ ?_
    refine (Plan.FilesOnly.require hfile _).bind fun _ ↦ ?_
    exact (Plan.FilesOnly.line _).bind fun _ ↦ (Plan.FilesOnly.line _).bind fun _ ↦ .ok _

/-- The one program that a request runs. -/
def Request.invocation (r : Request) (l : Layout) : Invocation :=
  match r.action with
  | .build => buildInvocation r.target r.flags l
  | .run => launchInvocation r.target

def Request.failure (r : Request) (code : Int) : Failure :=
  match r.action with
  | .build => .toolchain code
  | .run => .emulator code

/-- What comes of a request after its program, and the files it leaves. -/
def Request.conclude (runner : Runner) (r : Request) (l : Layout) (ran : Ran) :
    Except Failure Unit × FileSystem :=
  match ran.result with
  | .error f => (.error f, ran.files)
  | .ok code =>
    if code = 0 then
      match r.action with
      | .build =>
        let p := (publish r.target.artifact r.target l).perform runner (.start ran.files)
        (p.1.map fun _ ↦ (), p.2.files)
      | .run => (.ok (), ran.files)
    else (.error (r.failure code), ran.files)

section Conclude

variable {r : Request} {ran : Ran}

theorem Request.conclude_error {f : Failure} (h : ran.result = .error f) (runner : Runner)
    (l : Layout) : r.conclude runner l ran = (.error f, ran.files) := by
  rw [conclude, h]

theorem Request.conclude_code {code : Int} (h : ran.result = .ok code) (hne : code ≠ 0)
    (runner : Runner) (l : Layout) :
    r.conclude runner l ran = (.error (r.failure code), ran.files) := by
  simp only [conclude, h, if_neg hne]

theorem Request.conclude_build (ha : r.action = .build) (h0 : ran.result = .ok 0)
    (runner : Runner) (l : Layout) :
    r.conclude runner l ran =
      let p := (publish r.target.artifact r.target l).perform runner (.start ran.files)
      (p.1.map fun _ ↦ (), p.2.files) := by
  simp only [conclude, h0, ha, if_true]

theorem Request.conclude_run (ha : r.action = .run) (h0 : ran.result = .ok 0) (runner : Runner)
    (l : Layout) : r.conclude runner l ran = (.ok (), ran.files) := by
  simp only [conclude, h0, ha, if_true]

end Conclude

def checked (failure : Int → Failure) : Except Failure Int → Except Failure Unit
  | .ok code => if code = 0 then .ok () else .error (failure code)
  | .error f => .error f

theorem perform_exitCode_checked (i : Invocation) (failure : Int → Failure) (s : Session) :
    (do
      let code ← Plan.exitCode i
      if code = 0 then return else Plan.fail (failure code) : Plan Unit).perform runner s =
      (checked failure (s.run runner i).1, (s.run runner i).2) := by
  rw [Plan.perform_bind, Plan.perform_exitCode]
  rcases s.run runner i with ⟨f | code, s'⟩
  · rfl
  · by_cases h : code = 0 <;> simp [h, checked]

def Session.printLines (s : Session) (lines : List String) : Session :=
  lines.foldl (fun s line ↦ s.print (line ++ "\n")) s

def buildNotice (t : Target) (flags : Flags) (l : Layout) : List String :=
  ["Building " ++ package ++ " (" ++ t.configuration.name ++ ")...",
   "  Target:  " ++ t.triple,
   "  Output:  " ++ t.outputDirectory.text,
   "  Flags:   " ++ flags.display,
   "  Command: " ++ (buildInvocation t flags l).display]

def launchNotice (t : Target) : List String :=
  ["Running " ++ package ++ " in QEMU...",
   "  Emulator: " ++ t.emulator,
   "  Command:  " ++ (launchInvocation t).display]

theorem perform_buildPackage (t : Target) (flags : Flags) (l : Layout) (s : Session) :
    (buildPackage t flags l).perform runner s =
      let q := (s.printLines (buildNotice t flags l)).run runner (buildInvocation t flags l)
      (checked .toolchain q.1, q.2) := by
  simp only [buildPackage, Plan.perform_line_bind, perform_exitCode_checked, Session.printLines,
    buildNotice, List.foldl_cons, List.foldl_nil]

theorem perform_launch (t : Target) (s : Session) :
    (launch t).perform runner s =
      let q := (s.printLines (launchNotice t)).run runner (launchInvocation t)
      (checked .emulator q.1, q.2) := by
  simp only [launch, Plan.perform_line_bind, perform_exitCode_checked, Session.printLines,
    launchNotice, List.foldl_cons, List.foldl_nil]

@[simp]
theorem Session.print_files (s : Session) (text : String) : (s.print text).files = s.files := rfl

@[simp]
theorem Session.print_spawned (s : Session) (text : String) :
    (s.print text).spawned = s.spawned := rfl

@[simp]
theorem Session.print_stderr (s : Session) (text : String) :
    (s.print text).stderr = s.stderr := rfl

@[simp]
theorem Session.printLines_files (s : Session) (lines : List String) :
    (s.printLines lines).files = s.files := by
  induction lines generalizing s with
  | nil => rfl
  | cons line lines ih => exact ih _

@[simp]
theorem Session.printLines_spawned (s : Session) (lines : List String) :
    (s.printLines lines).spawned = s.spawned := by
  induction lines generalizing s with
  | nil => rfl
  | cons line lines ih => exact ih _

@[simp]
theorem Session.printLines_stderr (s : Session) (lines : List String) :
    (s.printLines lines).stderr = s.stderr := by
  induction lines generalizing s with
  | nil => rfl
  | cons line lines ih => exact ih _

def publishBuilt (t : Target) (l : Layout) : Plan Unit := do
  .reportTime "Toolchain" (pure ())
  .line "\nPublishing to boot media..."
  let _ ← publish t.artifact t l
  .line ("\nNext: " ++ programName ++ " run " ++ t.label)

theorem execute_build (t : Target) (flags : Flags) (l : Layout) :
    execute ⟨.build, t, flags⟩ l = (do
      .line ("=== Building " ++ package ++ " (" ++ t.label ++ ") ===\n")
      buildPackage t flags l
      publishBuilt t l) := rfl

theorem filesOnly_publishBuilt (t : Target) (l : Layout) :
    (publishBuilt t l).FilesOnly Failure.IsOfFiles :=
  .reportTime _ ((Plan.FilesOnly.line _).bind fun _ ↦
    (filesOnly_publish _ _ _).bind fun _ ↦ .line _)

theorem perform_publishBuilt (runner : Runner) (t : Target) (l : Layout) (s : Session) :
    ((publishBuilt t l).perform runner s).1 =
        ((publish t.artifact t l).perform runner (.start s.files)).1.map (fun _ ↦ ()) ∧
      ((publishBuilt t l).perform runner s).2.files =
        ((publish t.artifact t l).perform runner (.start s.files)).2.files := by
  rw [publishBuilt, Plan.perform_reportTime_bind, Plan.perform_line_bind]
  generalize hs : Session.print _ _ = s'
  have hfiles : s'.files = (Session.start s.files).files := by
    rw [← hs]
    rfl
  obtain ⟨hr, hf, -⟩ := (filesOnly_publish t.artifact t l).perform hfiles runner runner
  rw [Plan.perform_bind, ← hr, ← hf]
  rcases (publish t.artifact t l).perform runner s' with ⟨f | p, s''⟩ <;> exact ⟨rfl, rfl⟩

/-- A request runs its one program; what comes of it and of the files is what `conclude` says. -/
theorem perform_execute (runner : Runner) (r : Request) (l : Layout) (s : Session) :
    let ran := runner (r.invocation l) s.files
    let q := (execute r l).perform runner s
    (q.1, q.2.files) = r.conclude runner l ran ∧
      q.2.spawned = s.spawned ++ [r.invocation l] ∧ q.2.stderr = s.stderr ++ ran.stderr := by
  obtain ⟨action, t, flags⟩ := r
  cases action with
  | run =>
    simp only [execute, Plan.perform_line_bind, Plan.perform_timed, perform_launch,
      Plan.perform, Session.run, Session.printLines_files, Session.print_files,
      Session.printLines_spawned, Session.print_spawned, Session.printLines_stderr,
      Session.print_stderr, Request.invocation, Request.conclude, Request.failure, and_true]
    cases (runner (launchInvocation t) s.files).result with
    | error f => rfl
    | ok code => by_cases h : code = 0 <;> simp [checked, h]
  | build =>
    rw [execute_build, Plan.perform_line_bind, Plan.perform_bind, perform_buildPackage]
    simp only [Session.run, Session.printLines_files, Session.print_files,
      Session.printLines_spawned, Session.print_spawned, Session.printLines_stderr,
      Session.print_stderr, Request.invocation, Request.conclude, Request.failure]
    cases (runner (buildInvocation t flags l) s.files).result with
    | error f => exact ⟨rfl, rfl, rfl⟩
    | ok code =>
      by_cases h : code = 0
      · simp only [checked, h, if_true]
        generalize hs : Session.mk _ _ _ _ _ = s'
        obtain ⟨hr, hf⟩ := perform_publishBuilt runner t l s'
        obtain ⟨-, -, hp, he⟩ :=
          (filesOnly_publishBuilt t l).perform (rfl : s'.files = s'.files) runner runner
        rw [hr, hf, hp, he, ← hs]
        exact ⟨rfl, rfl, rfl⟩
      · simp [checked, h]

end BootMedia
