import BootMedia.Proofs.Delivery
import BootMedia.Proofs.Pipeline

namespace BootMedia

open FileSystem

variable {runner : Runner} {s s' : Session} {fs fs' : FileSystem} {p source dest : Path}
  {t : Target} {l : Layout} {i j : Inode} {f : Failure} {file : RegularFile} {mode : Nat}

namespace FileSystem

theorem Grows.of_no_file (h : fs.Grows {j} fs') (hj : fs.fileAt? j = none)
    (hj' : fs'.fileAt? j = none) : fs.Grows ∅ fs' := by
  refine ⟨h.toExtends, h.link, fun {i f} _ ↦ ?_⟩
  by_cases hij : i = j
  · subst hij
    rw [← fileAt?_eq_some, ← fileAt?_eq_some, hj, hj']
  · exact h.file hij

theorem openOutput_no_file (h : fs.openOutput p mode = .ok (j, fs'))
    (hj : fs'.fileAt? j = none) : fs.fileAt? j = none := by
  rw [openOutput] at h
  split at h
  · split at h
    · split at h
      · cases h
        exact hj
      · cases h
    · cases h
      exact hj
    · cases h
  · cases h
    rw [fileAt?, node?_size]
  · cases h

theorem copyFile_no_file (h : fs.copyFile source dest = .ok fs') (hj : fs'.resolve dest = .ok j)
    (hnone : fs'.fileAt? j = none) : fs.fileAt? j = none := by
  obtain ⟨⟨i, file⟩, -, h⟩ := bind_eq_ok h
  obtain ⟨⟨k, fs₂⟩, ho, ha⟩ := bind_eq_ok h
  obtain ⟨⟨m, fs₁⟩, hopen, ho'⟩ := bind_eq_ok ho
  obtain ⟨rfl, rfl⟩ := Prod.mk.inj (Except.ok.inj ho')
  obtain ⟨hk, -⟩ := openEmpty_eq_ok ho
  obtain ⟨hgrows, hfile⟩ := append_eq_ok ha
  have hresolve := hgrows.resolve ((grows_updateFile _ m ({ · with mode := file.mode })).resolve hk)
  obtain rfl : m = j := Except.ok.inj (hresolve.symm.trans hj)
  apply openOutput_no_file hopen
  rw [hfile, Option.map_eq_none_iff, fileAt?_updateFile, Option.map_eq_none_iff] at hnone
  change (fs₁.updateFile m _).fileAt? m = none at hnone
  rwa [fileAt?_updateFile, Option.map_eq_none_iff] at hnone

theorem isSome_fileAt?_of_copyFile (hi : fs.fileAt? i = some file) (hj : fs'.resolve dest = .ok j)
    (hgrows : fs.Grows {j} fs') (h : fs.copyFile source dest = .ok fs') :
    (fs'.fileAt? i).isSome := by
  by_cases hij : i = j
  · subst hij
    by_contra hnone
    rw [Option.not_isSome_iff_eq_none] at hnone
    rw [copyFile_no_file h hj hnone] at hi
    cases hi
  · rw [hgrows.fileAt? hij, hi]
    rfl

theorem setModified_eq_error {time : Int} {e : SystemError}
    (h : fs.setModified p time = .error e) (hj : fs.resolve p = .ok j)
    (hf : fs.fileAt? j = some file) : e = .accessDenied ∧ ¬file.isWritable := by
  have hset : fs.setModified p time =
      if file.isWritable then .ok (fs.updateFile j ({ · with modified := time }))
      else .error .accessDenied := by
    rw [setModified, bind_of_ok hj, fileAt?_eq_some.1 hf]
  rw [hset] at h
  split at h
  · cases h
  · next hw =>
    cases h
    exact ⟨rfl, hw⟩

end FileSystem

theorem Fault.on_eq_error {α : Type} {x : Except SystemError α} {fault : Fault}
    (h : Fault.on p x = .error fault) : ∃ e, x = .error e ∧ fault = ⟨p, e⟩ := by
  cases x with
  | error e =>
    cases h
    exact ⟨e, rfl, rfl⟩
  | ok a => cases h

theorem FileCall.copyTime_eq_error {fault : Fault}
    (h : (FileCall.copyTime source p).perform fs = .error fault) (hi : fs.resolve source = .ok i)
    (hf : (fs.fileAt? i).isSome) :
    ∃ time e, fs.setModified p time = .error e ∧ fault = ⟨p, e⟩ := by
  obtain ⟨g, hg⟩ := Option.isSome_iff_exists.1 hf
  have hfile : fs.file? source = some g := file?_eq_some.2 ⟨i, hi, hg⟩
  rw [perform, hfile] at h
  obtain ⟨e, he, rfl⟩ := Fault.on_eq_error h
  exact ⟨g.modified, e, he, rfl⟩

theorem perform_makeDirectories_eq_ok (runner : Runner) (ps : List Path) (s : Session) :
    ∃ made s₁, (Plan.makeDirectories ps).perform runner s = (.ok made, s₁) ∧
      s.files.Grows ∅ s₁.files := by
  have hgrows := grows_makeDirectories runner ps s
  rcases hmade : (Plan.makeDirectories ps).perform runner s with ⟨f | made, s₁⟩
  · have hfails : ((Plan.makeDirectories ps).perform runner s).1 = .error f := by rw [hmade]
    exact ((filesOnly_makeDirectories (P := fun _ ↦ False) ps).failure hfails).elim
  · rw [hmade] at hgrows
    exact ⟨made, s₁, rfl, hgrows⟩

/-- Where the calls of a publishing end: with what failure, and what those before have left. -/
inductive PublishRefused (source : Path) (t : Target) (l : Layout) (fs : FileSystem) :
    Failure → FileSystem → Prop
  | missing : PublishRefused source t l fs (.missingArtifact source) fs
  | early {p : Path} {fs₁ : FileSystem} {cause : SystemError}
      (hp : p ∈ [l.bootDirectory, publishedFile t l]) (hmade : fs.Grows ∅ fs₁) :
      PublishRefused source t l fs (.file p cause) fs₁
  | untimed {i : Inode} {file : RegularFile} {fs₁ fs₂ : FileSystem} {fault : Fault}
      (hi : fs.resolve source = .ok i) (hf : fs.fileAt? i = some file)
      (hmade : fs.Grows ∅ fs₁) (hcopied : fs₁.copyFile source (publishedFile t l) = .ok fs₂)
      (htime : (FileCall.copyTime source (publishedFile t l)).perform fs₂ = .error fault) :
      PublishRefused source t l fs fault.failure fs₂
  | unwritten {i : Inode} {file : RegularFile} {fs₁ fs₂ fs₃ : FileSystem} {time : Int}
      {cause : SystemError}
      (hi : fs.resolve source = .ok i) (hf : fs.fileAt? i = some file) (hmade : fs.Grows ∅ fs₁)
      (hcopied : fs₁.copyFile source (publishedFile t l) = .ok fs₂)
      (htimed : fs₂.setModified (publishedFile t l) time = .ok fs₃) :
      PublishRefused source t l fs (.file l.startupScript cause) fs₃

theorem refused_of_publish_error
    (h : (publish source t l).perform runner s = (.error f, s')) :
    PublishRefused source t l s.files f s'.files := by
  rcases Plan.perform_require_bind_eq_error h with ⟨fault, hmissing, rfl, rfl⟩ | ⟨fs, hfound, h⟩
  · rw [FileCall.perform] at hmissing
    split at hmissing
    · cases hmissing
    · cases hmissing
      exact .missing
  obtain ⟨rfl, i, file, hi, hf⟩ := FileCall.requireFile_eq_ok hfound
  obtain ⟨made, s₁, hmade, hgrows⟩ := perform_makeDirectories_eq_ok runner l.bootDirectory.climb s
  replace h := (Plan.perform_bind_of_ok hmade _).symm.trans h
  cases made with
  | error fault =>
    cases h
    exact .early List.mem_cons_self hgrows
  | ok a =>
    rcases Plan.perform_require_bind_eq_error h with ⟨fault, hcopy, rfl, rfl⟩ | ⟨fs₂, hcopied, h⟩
    · obtain ⟨cause, -, rfl⟩ := Fault.on_eq_error hcopy
      exact .early (by simp) hgrows
    replace hcopied := Fault.on_eq_ok hcopied
    rcases Plan.perform_require_bind_eq_error h with ⟨fault, htime, rfl, rfl⟩ | ⟨fs₃, htimed, h⟩
    · exact .untimed hi hf hgrows hcopied htime
    obtain ⟨time, htimed⟩ := FileCall.copyTime_eq_ok htimed
    rcases Plan.perform_require_bind_eq_error h with ⟨fault, hwrite, rfl, rfl⟩ | ⟨fs₄, -, h⟩
    · obtain ⟨cause, -, rfl⟩ := Fault.on_eq_error hwrite
      exact .unwritten hi hf hgrows hcopied htimed
    · cases h

/-- A publishing that fails in its first calls leaves all regular files as they are. One that fails
behind the copy has replaced the boot file, and nothing else. -/
theorem publish_error_leaves (runner : Runner) (s s' : Session) (source : Path) (t : Target)
    (l : Layout) (f : Failure) (h : (publish source t l).perform runner s = (.error f, s')) :
    f = .missingArtifact source ∧ s'.files = s.files ∨
      (∃ p cause, p ∈ [l.bootDirectory, publishedFile t l] ∧ f = .file p cause ∧
        s.files.Grows ∅ s'.files) ∨
      ∃ i j file g, s.files.resolve source = .ok i ∧ s.files.fileAt? i = some file ∧
        s'.files.resolve (publishedFile t l) = .ok j ∧ s'.files.fileAt? j = some g ∧
        g.mode = file.mode ∧ g.bytes = (if i = j then .empty else file.bytes) ∧
        s.files.Grows {j} s'.files ∧
        (f = .file (publishedFile t l) .accessDenied ∧ ¬file.isWritable ∨
          ∃ cause, f = .file l.startupScript cause) := by
  have hrefused := refused_of_publish_error h
  clear h
  generalize s'.files = fs' at hrefused ⊢
  cases hrefused with
  | missing => exact .inl ⟨rfl, rfl⟩
  | early hp hmade => exact .inr (.inl ⟨_, _, hp, rfl, hmade⟩)
  | untimed hi hf hmade hcopied htime =>
    right
    obtain ⟨j, hi₁, hf₁, -, hj, hcopy, hbytes⟩ := copyFile_of_grows hmade hi hf hcopied
    have hgrows := (hmade.mono (Set.empty_subset {j})).trans hcopy
    have hsource := isSome_fileAt?_of_copyFile hf₁ hj hcopy hcopied
    obtain ⟨time, e, he, rfl⟩ := FileCall.copyTime_eq_error htime (hcopy.resolve hi₁) hsource
    cases hg : fs'.fileAt? j with
    | none =>
      -- What took the copy is a device, so no regular file has been replaced.
      have hold : s.files.fileAt? j = none := by
        rw [← hmade.fileAt? (Set.notMem_empty j)]
        exact copyFile_no_file hcopied hj hg
      exact .inl ⟨publishedFile t l, e, by simp, rfl, hgrows.of_no_file hold hg⟩
    | some g =>
      obtain ⟨hb, hm⟩ := hbytes hg
      obtain ⟨rfl, hwrite⟩ := setModified_eq_error he hj hg
      rw [RegularFile.isWritable, hm] at hwrite
      exact .inr ⟨_, j, _, g, hi, hf, hj, hg, hm, hb, hgrows, .inl ⟨rfl, hwrite⟩⟩
  | unwritten hi hf hmade hcopied htimed =>
    obtain ⟨j, hi₁, hf₁, -, hj, hcopy, hbytes⟩ := copyFile_of_grows hmade hi hf hcopied
    have hgrows := (hmade.mono (Set.empty_subset {j})).trans hcopy
    obtain ⟨k, g, hk, hg, htime, hg'⟩ := setModified_eq_ok htimed
    obtain rfl : j = k := Except.ok.inj (hj.symm.trans hk)
    obtain ⟨hb, hm⟩ := hbytes hg
    exact .inr (.inr ⟨_, j, _, _, hi, hf, htime.resolve hj, hg', hm, hb, hgrows.trans htime,
      .inr ⟨_, rfl⟩⟩)

def oldScript : Node := .file ⟨"old script".toUTF8, 0o644, 6⟩

def publishedWorkspace (mode : Nat) (script : Node) : FileSystem where
  nodes := #[.directory 0 [("ws", 1)], .directory 0 [("iron.efi", 2), ("build", 3)],
    .file ⟨"new".toUTF8, mode, 5⟩, .directory 1 [("EFI", 4), ("startup.nsh", 7)],
    .directory 3 [("BOOT", 5)], .directory 4 [("BOOTX64.EFI", 6)],
    .file ⟨"old".toUTF8, 0o644, 6⟩, script]
  here := 0
  clock := 9

def publishAgain (mode : Nat) (script : Node) : Except Failure Path × Session :=
  (publish ⟨"/ws/iron.efi"⟩ ⟨.x64, .release, ⟨⟨"/ws"⟩⟩⟩ ⟨⟨"/ws"⟩⟩).perform
    (fun _ fs ↦ ⟨.ok 0, fs, "", "", 7⟩) (.start (publishedWorkspace mode script))

theorem publish_error_leaves_read_only :
    let fs := publishedWorkspace 0o444 oldScript
    let fs' := (publishAgain 0o444 oldScript).2.files
    (publishAgain 0o444 oldScript).1 =
        .error (.file ⟨"/ws/build/EFI/BOOT/BOOTX64.EFI"⟩ .accessDenied) ∧
      (fs.fileAt? 6).map (·.bytes) = some "old".toUTF8 ∧
      (fs'.fileAt? 6).map (·.bytes) = some "new".toUTF8 ∧ fs.Grows {6} fs' := by
  intro fs fs'
  have hfails : (publishAgain 0o444 oldScript).1 =
      .error (.file ⟨"/ws/build/EFI/BOOT/BOOTX64.EFI"⟩ .accessDenied) := rfl
  have hold : (fs.fileAt? 6).map (·.bytes) = some "old".toUTF8 := rfl
  have hnew : (fs'.fileAt? 6).map (·.bytes) = some "new".toUTF8 := rfl
  refine ⟨hfails, hold, hnew, ?_⟩
  rcases publish_error_leaves _ _ _ _ _ _ _ (Prod.ext hfails rfl) with
    ⟨hmissing, -⟩ | ⟨_, _, -, -, hgrows⟩ | ⟨i, j, file, g, -, -, hj, -, -, -, hgrows, -⟩
  · cases hmissing
  · have hsame : fs'.fileAt? 6 = fs.fileAt? 6 := hgrows.fileAt? (Set.notMem_empty 6)
    rw [hsame, hold] at hnew
    exact absurd hnew (by decide)
  · obtain rfl : j = 6 := Except.ok.inj (hj.symm.trans rfl)
    exact hgrows

theorem publish_onto_directory :
    let fs := publishedWorkspace 0o644 (.directory 3 [])
    let fs' := (publishAgain 0o644 (.directory 3 [])).2.files
    (publishAgain 0o644 (.directory 3 [])).1 =
        .error (.file ⟨"/ws/build/startup.nsh"⟩ .isDirectory) ∧
      fs.contents ⟨"/ws/build/EFI/BOOT/BOOTX64.EFI"⟩ = .ok "old".toUTF8 ∧
      fs'.contents ⟨"/ws/build/EFI/BOOT/BOOTX64.EFI"⟩ = .ok "new".toUTF8 ∧
      "new".toUTF8 ≠ "old".toUTF8 ∧ (fs.nodes.toList.all fun n ↦ !n matches .link _) :=
  ⟨rfl, rfl, rfl, by decide, rfl⟩

end BootMedia
