import BootMedia.Proofs.Pipeline

namespace BootMedia

def Plan.printLines {α : Type} (lines : List String) (next : Plan α) : Plan α :=
  lines.foldr (fun line p ↦ .print (line ++ "\n") p) next

namespace Request

def notice (r : Request) (l : Layout) : List String :=
  match r.action with
  | .build =>
    ("=== Building " ++ package ++ " (" ++ r.target.label ++ ") ===\n") ::
      buildNotice r.target r.flags l
  | .run =>
    ("=== Running " ++ package ++ " (" ++ r.target.label ++ ") ===\n") :: launchNotice r.target

def afterwards (r : Request) (l : Layout) (result : Except Failure Int) : Plan Unit :=
  match r.action with
  | .build => do
    Plan.done (checked r.failure result)
    publishBuilt r.target l
  | .run => .reportTime "QEMU" (.done (checked r.failure result))

def commandLead (r : Request) : String :=
  match r.action with
  | .build => "  Command: "
  | .run => "  Command:  "

end Request

theorem exitCode_checked_andThen {β : Type} (i : Invocation) (failure : Int → Failure)
    (k : Except Failure Unit → Plan β) :
    (do
      let code ← Plan.exitCode i
      if code = 0 then return else Plan.fail (failure code) : Plan Unit).andThen k =
      .run i fun result ↦ k (checked failure result) := by
  refine congrArg (Plan.run i) (funext fun result ↦ ?_)
  cases result with
  | error f => rfl
  | ok code =>
    by_cases h : code = 0
    · subst h
      rfl
    · simp only [Plan.andThen, checked, if_neg h]
      rfl

theorem execute_eq (r : Request) (l : Layout) :
    execute r l = .printLines (r.notice l) (.run (r.invocation l) (r.afterwards l)) := by
  obtain ⟨action, t, flags⟩ := r
  cases action with
  | build =>
    exact congrArg (Plan.printLines (Request.notice ⟨.build, t, flags⟩ l))
      (exitCode_checked_andThen (buildInvocation t flags l) .toolchain _)
  | run =>
    exact congrArg (Plan.printLines (Request.notice ⟨.run, t, flags⟩ l))
      (exitCode_checked_andThen (launchInvocation t) .emulator _)

theorem getLast?_notice (r : Request) (l : Layout) :
    (r.notice l).getLast? = some (r.commandLead ++ (r.invocation l).display) := by
  obtain ⟨action, t, flags⟩ := r
  cases action <;> rfl

theorem filesOnly_afterwards (r : Request) (l : Layout) (result : Except Failure Int) :
    (r.afterwards l result).FilesOnly fun _ ↦ True := by
  have hended : (Plan.done (checked r.failure result)).FilesOnly fun _ ↦ True := by
    cases checked r.failure result with
    | ok a => exact .ok a
    | error f => exact .error trivial
  obtain ⟨action, t, flags⟩ := r
  cases action with
  | build =>
    have hpublish := (filesOnly_publishBuilt t l).mono fun _ _ ↦ trivial
    exact hended.bind fun _ ↦ hpublish
  | run => exact .reportTime _ hended

/-- A request prints, runs its one program, and then at most makes file calls. How the program ended
decides: only a build whose toolchain ended with zero goes on to publish, from the files that the
toolchain left. -/
theorem execute_runs_one_program (r : Request) (l : Layout) :
    (execute r l = .printLines (r.notice l) (.run (r.invocation l) (r.afterwards l)) ∧
      (r.notice l).getLast? = some (r.commandLead ++ (r.invocation l).display) ∧
      ∀ result, (r.afterwards l result).FilesOnly fun _ ↦ True) ∧
    ∀ (runner : Runner) (s : Session),
      let ran := runner (r.invocation l) s.files
      let q := (execute r l).perform runner s
      q.2.spawned = s.spawned ++ [r.invocation l] ∧
      (∀ f, ran.result = .error f → q.1 = .error f ∧ q.2.files = ran.files) ∧
      (∀ code, ran.result = .ok code → code ≠ 0 →
        q.1 = .error (r.failure code) ∧ (r.failure code).exitCode = code ∧
          q.2.files = ran.files) ∧
      (ran.result = .ok 0 →
        match r.action with
        | .run => q.1 = .ok () ∧ q.2.files = ran.files
        | .build =>
          let p := (publish r.target.artifact r.target l).perform runner (.start ran.files)
          q.1 = p.1.map (fun _ ↦ ()) ∧ q.2.files = p.2.files) := by
  refine ⟨⟨execute_eq r l, getLast?_notice r l, filesOnly_afterwards r l⟩, ?_⟩
  intro runner s ran q
  obtain ⟨hq, hspawned, -⟩ := perform_execute runner r l s
  refine ⟨hspawned, ?_, ?_, ?_⟩
  · intro f hf
    exact Prod.mk.inj (hq.trans (Request.conclude_error hf runner l))
  · intro code hcode hne
    have hexit : (r.failure code).exitCode = code := by
      rw [Request.failure]
      cases r.action <;> rfl
    obtain ⟨hresult, hfiles⟩ := Prod.mk.inj (hq.trans (Request.conclude_code hcode hne runner l))
    exact ⟨hresult, hexit, hfiles⟩
  · intro hzero
    cases haction : r.action with
    | build =>
      obtain ⟨hresult, hfiles⟩ :=
        Prod.mk.inj (hq.trans (Request.conclude_build haction hzero runner l))
      exact ⟨hresult, hfiles⟩
    | run =>
      obtain ⟨hresult, hfiles⟩ :=
        Prod.mk.inj (hq.trans (Request.conclude_run haction hzero runner l))
      exact ⟨hresult, hfiles⟩

theorem execute_runs_one_program_toolchain_code :
    let q := (execute ⟨.build, ⟨.x64, .release, ⟨⟨"/ws"⟩⟩⟩, ⟨none, some "-s"⟩⟩ ⟨⟨"/ws"⟩⟩).perform
      (fun _ fs ↦ ⟨.ok 101, fs.tick, "", "", 7⟩) (.start .empty)
    q.1 = .error (.toolchain 101) ∧ q.2.files = FileSystem.empty.tick := by
  obtain ⟨-, -, hcode, -⟩ := (execute_runs_one_program
    ⟨.build, ⟨.x64, .release, ⟨⟨"/ws"⟩⟩⟩, ⟨none, some "-s"⟩⟩ ⟨⟨"/ws"⟩⟩).2
    (fun _ fs ↦ ⟨.ok 101, fs.tick, "", "", 7⟩) (.start .empty)
  obtain ⟨hresult, -, hfiles⟩ := hcode 101 rfl (by decide)
  exact ⟨hresult, hfiles⟩

end BootMedia
