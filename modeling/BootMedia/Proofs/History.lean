import BootMedia.Proofs.Pipeline
import BootMedia.Proofs.Request
import BootMedia.Proofs.Workspace

namespace BootMedia

open FileSystem

structure Call where
  request : Request
  runner : Runner

namespace Call

def ran (c : Call) (l : Layout) (fs : FileSystem) : Ran := c.runner (c.request.invocation l) fs

def outcome (c : Call) (l : Layout) (fs : FileSystem) : Except Failure Unit × FileSystem :=
  let q := (execute c.request l).perform c.runner (.start fs)
  (q.1, q.2.files)

def published? (c : Call) (l : Layout) (fs : FileSystem) : Option Publication :=
  match c.request.action, (c.outcome l fs).1 with
  | .build, .ok () =>
    ((c.ran l fs).files.file? c.request.target.artifact).map (⟨c.request.target.architecture, ·⟩)
  | _, _ => none

end Call

def history (l : Layout) : List Call → FileSystem → List Publication × FileSystem
  | [], fs => ([], fs)
  | c :: calls, fs =>
    let rest := history l calls (c.outcome l fs).2
    ((c.published? l fs).toList ++ rest.1, rest.2)

/-- What a program may do in the workspace `fs`: it may change everything but the boot media, as
long as there is a tree with the root in it and the binaries can be copied, and it may end with any
code or not be started at all. -/
structure Ran.Spares (ran : Ran) (l : Layout) (fs : FileSystem) : Prop where
  tree : ran.files.IsTree
  begins : ran.files.Begins l.root
  root : ran.files.isDirectory l.root
  media : ∀ ns, ran.files.seen l.root (Layout.mediaName :: ns) =
    fs.seen l.root (Layout.mediaName :: ns)
  binary : ∀ a c f, ran.files.file? (Target.mk a c l).artifact = some f →
    f.isReadable ∧ f.isWritable
  result : ∀ f, ran.result = .error f → ∃ program cause, f = .spawn program cause

structure Call.IsProper (c : Call) (l : Layout) : Prop where
  request : ∃ action architecture configuration flags,
    Request.ofNames action architecture configuration flags l = .ok c.request
  runner : ∀ fs, Workspace l fs → (c.ran l fs).Spares l fs

variable {fs : FileSystem} {l : Layout} {c : Call} {calls : List Call}

inductive Call.Ends (c : Call) (l : Layout) (fs : FileSystem) :
    Except Failure Unit × FileSystem → Prop
  | failed {f : Failure} : (c.ran l fs).result ≠ .ok 0 → (∀ path cause, f ≠ .file path cause) →
      Ends c l fs (.error f, (c.ran l fs).files)
  | booted : c.request.action = .run → (c.ran l fs).result = .ok 0 →
      Ends c l fs (.ok (), (c.ran l fs).files)
  | missing {path : Path} : c.request.action = .build → (c.ran l fs).result = .ok 0 →
      (c.ran l fs).files.file? c.request.target.artifact = none →
      Ends c l fs (.error (.missingArtifact path), (c.ran l fs).files)
  | published {f : RegularFile} {fs' : FileSystem} : c.request.action = .build →
      (c.ran l fs).result = .ok 0 →
      (c.ran l fs).files.file? c.request.target.artifact = some f →
      Replays l (c.ran l fs).files [⟨c.request.target.architecture, f⟩] fs' →
      (∀ w, (c.ran l fs).files.HasNames l.root w → ∀ ns, ¬w ++ [Layout.mediaName] <+: ns →
        fs'.view rootInode ns = (c.ran l fs).files.view rootInode ns) →
      Ends c l fs (.ok (), fs')

theorem Call.outcome_eq (c : Call) (l : Layout) (fs : FileSystem) :
    c.outcome l fs = c.request.conclude c.runner l (c.ran l fs) :=
  (perform_execute c.runner c.request l (.start fs)).1

theorem Call.IsProper.workspace_ran (hc : c.IsProper l) (h : Workspace l fs) :
    Workspace l (c.ran l fs).files := by
  have hs := hc.runner fs h
  exact h.of_media hs.tree hs.begins hs.root hs.media hs.binary

section Conclude

variable {r : Request} {ran : Ran} {f : RegularFile} (ha : r.action = .build)
  (h0 : ran.result = .ok 0)
include ha h0

theorem Request.conclude_of_missing (runner : Runner) (l : Layout)
    (hf : ran.files.file? r.target.artifact = none) :
    r.conclude runner l ran = (.error (.missingArtifact r.target.artifact), ran.files) := by
  have hf' : (Session.start ran.files).files.file? r.target.artifact = none := hf
  rw [conclude_build ha h0, publish_of_missing r.target l hf']
  rfl

theorem Workspace.conclude_of_found (h : Workspace l ran.files) (hl : r.target.layout = l)
    (hf : ran.files.file? r.target.artifact = some f) (runner : Runner) :
    ∃ fs', r.conclude runner l ran = (.ok (), fs') ∧
      Replays l ran.files [⟨r.target.architecture, f⟩] fs' ∧
      ∀ w, ran.files.HasNames l.root w → ∀ ns, ¬w ++ [Layout.mediaName] <+: ns →
        fs'.view rootInode ns = ran.files.view rootInode ns := by
  obtain ⟨action, ⟨a, d, rl⟩, flags⟩ := r
  obtain rfl : rl = l := hl
  have hw : Workspace rl (Session.start ran.files).files := h
  obtain ⟨s', hp, hrep, hout⟩ := hw.perform_publish hf runner
  refine ⟨s'.files, ?_, hrep, hout⟩
  rw [Request.conclude_build ha h0, hp]
  rfl

end Conclude

theorem Call.IsProper.ends (hc : c.IsProper l) (h : Workspace l fs) :
    c.Ends l fs (c.outcome l fs) := by
  obtain ⟨action, architecture, configuration, flags, hr⟩ := hc.request
  have hl := Request.layout_of_ofNames hr
  have hs := hc.runner fs h
  have hw := hc.workspace_ran h
  rw [outcome_eq]
  cases hres : (c.ran l fs).result with
  | error f =>
    obtain ⟨program, cause, rfl⟩ := hs.result f hres
    rw [Request.conclude, hres]
    refine .failed ?_ ?_
    · rw [hres]
      rintro ⟨⟩
    · rintro path cause ⟨⟩
  | ok code =>
    by_cases h0 : code = 0
    · subst h0
      cases ha : c.request.action with
      | run =>
        rw [Request.conclude, hres, ha]
        exact .booted ha hres
      | build =>
        cases hf : (c.ran l fs).files.file? c.request.target.artifact with
        | none =>
          rw [Request.conclude_of_missing ha hres c.runner l hf]
          exact .missing ha hres hf
        | some f =>
          obtain ⟨fs', hq, hrep, hout⟩ := hw.conclude_of_found ha hres hl hf c.runner
          rw [hq]
          exact .published ha hres hf hrep hout
    · rw [Request.conclude, hres]
      simp only [h0, if_false]
      refine .failed ?_ ?_
      · rw [hres]
        exact fun he ↦ h0 (Except.ok.inj he)
      · rw [Request.failure]
        cases c.request.action <;> rintro path cause ⟨⟩

theorem Call.IsProper.replays (hc : c.IsProper l) (h : Workspace l fs) :
    Replays l fs (c.published? l fs).toList (c.outcome l fs).2 := by
  have hran : Replays l fs [] (c.ran l fs).files :=
    .nil (hc.workspace_ran h) (hc.runner fs h).media
  have he := hc.ends h
  generalize hq : c.outcome l fs = q at he
  cases he with
  | failed h0 hf => simpa [Call.published?, hq] using hran
  | booted ha h0 => simpa [Call.published?, hq, ha] using hran
  | missing ha h0 hf => simpa [Call.published?, hq, ha] using hran
  | published ha h0 hf hrep hout => simpa [Call.published?, hq, ha, hf] using hran.append hrep

theorem replays_history (hw : Workspace l fs) (hcalls : ∀ c ∈ calls, c.IsProper l) :
    Replays l fs (history l calls fs).1 (history l calls fs).2 := by
  induction calls generalizing fs with
  | nil => exact .nil hw fun _ ↦ rfl
  | cons c calls ih =>
    obtain ⟨hc, hcalls⟩ := List.forall_mem_cons.1 hcalls
    have h := hc.replays hw
    exact h.append (ih h.workspace hcalls)

/-- A call in the workspace `fs` fails for no reason of its own, and has no other effect than its
program and, if it is a build that succeeds, one publication. -/
structure Call.IsClean (c : Call) (l : Layout) (fs : FileSystem) : Prop where
  ok_iff : c.request.action = .build → ((c.outcome l fs).1 = .ok () ↔
    (c.ran l fs).result = .ok 0 ∧ (c.ran l fs).files.isFile c.request.target.artifact)
  not_file : ∀ path cause, (c.outcome l fs).1 ≠ .error (.file path cause)
  published_iff : (c.published? l fs).isSome ↔
    c.request.action = .build ∧ (c.outcome l fs).1 = .ok ()
  files_eq : c.published? l fs = none → (c.outcome l fs).2 = (c.ran l fs).files
  outside : ∀ w, (c.ran l fs).files.HasNames l.root w → ∀ ns, ¬w ++ [Layout.mediaName] <+: ns →
    (c.outcome l fs).2.view rootInode ns = (c.ran l fs).files.view rootInode ns

theorem Call.IsProper.isClean (hc : c.IsProper l) (h : Workspace l fs) : c.IsClean l fs := by
  have he := hc.ends h
  generalize hq : c.outcome l fs = q at he
  cases he with
  | failed h0 hf =>
    refine ⟨fun _ ↦ ?_, ?_, ?_, fun _ ↦ ?_, fun _ _ _ _ ↦ ?_⟩ <;> rw [hq]
    · refine ⟨?_, fun h ↦ absurd h.1 h0⟩
      rintro ⟨⟩
    · rintro path cause ⟨⟩
      exact hf path cause rfl
    · simp [Call.published?, hq]
  | booted ha h0 =>
    refine ⟨fun hb ↦ ?_, ?_, ?_, fun _ ↦ ?_, fun _ _ _ _ ↦ ?_⟩ <;> rw [hq]
    · rw [ha] at hb
      cases hb
    · rintro path cause ⟨⟩
    · simp [Call.published?, ha]
  | missing ha h0 hf =>
    refine ⟨fun _ ↦ ?_, ?_, ?_, fun _ ↦ ?_, fun _ _ _ _ ↦ ?_⟩ <;> rw [hq]
    · constructor
      · rintro ⟨⟩
      · rintro ⟨-, h⟩
        simp [isFile, hf] at h
    · rintro path cause ⟨⟩
    · simp [Call.published?, hq, ha]
  | published ha h0 hf hrep hout =>
    refine ⟨fun _ ↦ ?_, ?_, ?_, fun h ↦ ?_, fun w hw ns hns ↦ ?_⟩
    · rw [hq]
      exact ⟨fun _ ↦ ⟨h0, by simp [isFile, hf]⟩, fun _ ↦ rfl⟩
    · rw [hq]
      rintro path cause ⟨⟩
    · simp [Call.published?, hq, ha, hf]
    · simp [Call.published?, hq, ha, hf] at h
    · rw [hq]
      exact hout w hw ns hns

/-- In any sequence of calls each one is clean, and what they leave of the boot media are the last
publications: the script of the last of all, and for each architecture the file of its last. -/
theorem workspace_history (hw : Workspace l fs) (hcalls : ∀ c ∈ calls, c.IsProper l) :
    (∀ before c after, calls = before ++ c :: after → c.IsClean l (history l before fs).2) ∧
    let log := (history l calls fs).1
    let fs' := (history l calls fs).2
    (∀ p ∈ log.getLast?, fs'.read? l.startupScript =
      some (startupScript p.architecture.bootFile).toUTF8) ∧
    (∀ a, ∀ f ∈ latest log a, fs'.file? (l.bootDirectory / a.bootFile) = some f) ∧
    ∀ ns, ¬Touched log (Layout.mediaName :: ns) →
      fs'.seen l.root (Layout.mediaName :: ns) = fs.seen l.root (Layout.mediaName :: ns) := by
  refine ⟨fun before c after hsplit ↦ ?_, ?_⟩
  · have hbefore : ∀ d ∈ before, d.IsProper l := fun d hd ↦ hcalls d (by simp [hsplit, hd])
    have hc : c.IsProper l := hcalls c (by simp [hsplit])
    exact hc.isClean (replays_history hw hbefore).workspace
  · have h := replays_history hw hcalls
    exact ⟨fun p hp ↦ h.read?_startupScript hp, fun a f hf ↦ h.file?_bootFile hf, h.frame⟩

def FileSystem.withBinary (f : RegularFile) : FileSystem :=
  (((FileSystem.empty.addNode 0 "target" (.directory 0 [])).addNode 1 "x86_64-unknown-uefi"
    (.directory 1 [])).addNode 2 "debug" (.directory 2 [])).addNode 3 "iron.efi" (.file f)

theorem workspace_withBinary {f : RegularFile} (hread : f.isReadable) (hwrite : f.isWritable) :
    Workspace ⟨⟨"/"⟩⟩ (withBinary f) := by
  have ht : (withBinary f).IsTree :=
    (((isTree_empty.addNode rfl rfl .directory).addNode rfl rfl .directory).addNode rfl rfl
      .directory).addNode rfl rfl (.file f)
  have hmedia : ∀ ns, (withBinary f).seen ⟨"/"⟩ (Layout.mediaName :: ns) = none := fun _ ↦ rfl
  have hfiles : ∀ p g, (withBinary f).file? p = some g → g = f := by
    intro p g hg
    obtain ⟨i, -, hi⟩ := Option.bind_eq_some_iff.1 hg
    rw [fileAt?_eq_some] at hi
    match i, hi with
    | 4, hi => exact (Node.file.inj (Option.some.inj hi)).symm
  refine ⟨ht, begins_of_isAbsolute rfl, rfl, fun ns hns hne ↦ ?_, ?_, fun a ↦ ?_, fun a c g hg ↦ ?_⟩
  · obtain ⟨n, ns, rfl⟩ := List.exists_cons_of_ne_nil hne
    obtain rfl : n = Layout.mediaName := (List.cons_prefix_cons.1 hns).1
    exact .inl (hmedia ns)
  · rw [Layout.scriptNames, hmedia]
    exact .vacant
  · rw [Architecture.publishedNames, Layout.bootNames, List.cons_append, hmedia]
    exact .vacant
  · obtain rfl := hfiles _ g hg
    exact ⟨hread, hwrite⟩

theorem file?_withBinary (f : RegularFile) :
    (withBinary f).file? (Target.mk .x64 .debug ⟨⟨"/"⟩⟩).artifact = some f := rfl

theorem workspace_history_build_run :
    let l : Layout := ⟨⟨"/"⟩⟩
    let f : RegularFile := ⟨.empty, 0o755, 7⟩
    let build : Call :=
      ⟨⟨.build, ⟨.x64, .debug, l⟩, ⟨none, none⟩⟩, fun _ fs ↦ ⟨.ok 0, fs, "", "", 0⟩⟩
    let run : Call := ⟨⟨.run, ⟨.x64, .debug, l⟩, ⟨none, none⟩⟩,
      fun _ fs ↦ ⟨.error (.spawn "qemu-system-x86_64" .notFound), fs, "", "", 0⟩⟩
    Workspace l (withBinary f) ∧ build.IsProper l ∧ run.IsProper l ∧
      let fs := (history l [build, run] (withBinary f)).2
      fs.read? l.startupScript = some "\\EFI\\BOOT\\BOOTX64.EFI".toUTF8 ∧
        fs.file? (l.bootDirectory / "BOOTX64.EFI") = some f := by
  intro l f build run
  have hw : Workspace l (withBinary f) := workspace_withBinary (by decide) (by decide)
  have hb : build.IsProper l :=
    ⟨⟨"build", "x64", "debug", ⟨none, none⟩, rfl⟩,
      fun fs h ↦ ⟨h.tree, h.begins, h.root, fun _ ↦ rfl, h.binary, nofun⟩⟩
  have hr : run.IsProper l := by
    refine ⟨⟨"run", "x64", "debug", ⟨none, none⟩, rfl⟩,
      fun fs h ↦ ⟨h.tree, h.begins, h.root, fun _ ↦ rfl, h.binary, ?_⟩⟩
    rintro g ⟨⟩
    exact ⟨_, _, rfl⟩
  have hcalls : ∀ c ∈ [build, run], c.IsProper l := by
    rintro c (_ | ⟨_, _ | ⟨_, ⟨⟩⟩⟩)
    · exact hb
    · exact hr
  obtain ⟨hcall, hscript, hboot, -⟩ := workspace_history hw hcalls
  have hfile : (build.ran l (withBinary f)).files.file? build.request.target.artifact = some f :=
    file?_withBinary f
  have hok : (build.outcome l (withBinary f)).1 = .ok () := by
    refine ((hcall [] build [run] rfl).ok_iff rfl).2 ⟨rfl, ?_⟩
    exact congrArg Option.isSome hfile
  have hpublished : build.published? l (withBinary f) = some ⟨.x64, f⟩ := by
    rw [Call.published?, hok, hfile]
    rfl
  have hlog : (history l [build, run] (withBinary f)).1 = [⟨.x64, f⟩] := by
    rw [history, hpublished]
    rfl
  rw [hlog] at hscript hboot
  exact ⟨hw, hb, hr, hscript _ rfl, hboot .x64 f rfl⟩

end BootMedia
