import BootMedia.Proofs.FileSystem.Effect
import BootMedia.Proofs.Plan
import BootMedia.Publish

namespace BootMedia

open FileSystem

variable {runner : Runner} {s s' : Session} {fs fs' fs₁ : FileSystem} {p source output : Path}
  {t : Target} {l : Layout} {i j k : Inode} {f g : RegularFile}

theorem Fault.on_eq_ok {α : Type} {x : Except SystemError α} {a : α}
    (h : Fault.on p x = .ok a) : x = .ok a := by
  cases x with
  | error e => cases h
  | ok b => exact congrArg _ (Except.ok.inj h)

theorem FileCall.requireFile_eq_ok (h : (FileCall.requireFile p).perform fs = .ok fs') :
    fs' = fs ∧ ∃ i f, fs.resolve p = .ok i ∧ fs.fileAt? i = some f := by
  rw [perform] at h
  split at h
  · next hfile =>
    cases h
    obtain ⟨f, hf⟩ := Option.isSome_iff_exists.1 hfile
    obtain ⟨i, hi, hfile⟩ := file?_eq_some.1 hf
    exact ⟨rfl, i, f, hi, hfile⟩
  · cases h

theorem FileCall.copyTime_eq_ok (h : (FileCall.copyTime source p).perform fs = .ok fs') :
    ∃ time, fs.setModified p time = .ok fs' := by
  rw [perform] at h
  split at h
  · next f _ => exact ⟨f.modified, Fault.on_eq_ok h⟩
  · cases h

theorem grows_call_ensureDirectory (s : Session) (p : Path) :
    s.files.Grows ∅ (s.call (.ensureDirectory p)).2.files := by
  cases hc : (FileCall.ensureDirectory p).perform s.files with
  | error fault =>
    rw [Session.call_of_error hc]
    exact .refl _ _
  | ok fs =>
    rw [Session.call_of_ok hc]
    exact ensureDirectory_eq_ok (Fault.on_eq_ok hc)

theorem grows_makeDirectories (runner : Runner) (ps : List Path) (s : Session) :
    s.files.Grows ∅ ((Plan.makeDirectories ps).perform runner s).2.files := by
  induction ps generalizing s with
  | nil => exact .refl _ _
  | cons p above ih =>
    rw [Plan.makeDirectories, Plan.perform_attempt_bind]
    refine (grows_call_ensureDirectory s p).trans ?_
    cases (s.call (.ensureDirectory p)).1 with
    | ok a => exact .refl _ _
    | error fault =>
      dsimp only
      split
      · have habove := ih (s.call (.ensureDirectory p)).2
        rw [Plan.perform_bind]
        refine habove.trans ?_
        rcases (Plan.makeDirectories above).perform runner _ with ⟨_ | _ | _, s₁⟩
        · exact .refl _ _
        · exact .refl _ _
        · exact grows_call_ensureDirectory s₁ p
      · exact .refl _ _

theorem calls_of_publish (h : (publish source t l).perform runner s = (.ok output, s')) :
    output = publishedFile t l ∧
      (∃ i f, s.files.resolve source = .ok i ∧ s.files.fileAt? i = some f) ∧
      ∃ fs₁ fs₂ fs₃ time, s.files.Grows ∅ fs₁ ∧ fs₁.copyFile source output = .ok fs₂ ∧
        fs₂.setModified output time = .ok fs₃ ∧
        fs₃.writeFile l.startupScript (startupScript t.bootFile).toUTF8 = .ok s'.files := by
  obtain ⟨fs, hfound, h⟩ := Plan.perform_require_bind_eq_ok h
  obtain ⟨rfl, hsource⟩ := FileCall.requireFile_eq_ok hfound
  obtain ⟨made, s₁, hmade, h⟩ := Plan.perform_bind_eq_ok h
  have hgrows := grows_makeDirectories runner l.bootDirectory.climb s
  rw [show (Plan.makeDirectories _).perform runner s = _ from hmade] at hgrows
  cases made with
  | error fault => cases h
  | ok a =>
    obtain ⟨fs₂, hcopied, h⟩ := Plan.perform_require_bind_eq_ok h
    obtain ⟨fs₃, htimed, h⟩ := Plan.perform_require_bind_eq_ok h
    obtain ⟨fs₄, hwritten, h⟩ := Plan.perform_require_bind_eq_ok h
    cases h
    obtain ⟨time, htimed⟩ := FileCall.copyTime_eq_ok htimed
    exact ⟨rfl, hsource, s₁.files, fs₂, fs₃, time, hgrows, Fault.on_eq_ok hcopied, htimed,
      Fault.on_eq_ok hwritten⟩

namespace FileSystem

def contents (fs : FileSystem) (p : Path) : Except SystemError ByteArray :=
  (fs.openInput p).map (·.2.bytes)

theorem contents_eq_ok_iff {bytes : ByteArray} (hi : fs.resolve p = .ok i)
    (hf : fs.fileAt? i = some f) : fs.contents p = .ok bytes ↔ f.isReadable ∧ f.bytes = bytes := by
  have hopen : fs.openInput p =
      if f.isReadable then .ok (i, f) else .error .accessDenied := by
    rw [openInput, bind_of_ok hi, fileAt?_eq_some.1 hf]
  rw [contents, hopen]
  split
  · next hr => simp [Except.map, hr]
  · next hr => simp [Except.map, hr]

theorem contents_congr {p' : Path} (h : fs.resolve p = fs.resolve p') :
    fs.contents p = fs.contents p' := by
  rw [contents, contents, openInput, openInput, h]

theorem bytes_eq_empty_of_contents {bytes : ByteArray} (hi : fs.resolve p = .ok i)
    (hf : fs.fileAt? i = none) (h : fs.contents p = .ok bytes) : bytes = .empty := by
  rw [contents] at h
  cases ho : fs.openInput p with
  | error e =>
    rw [ho] at h
    cases h
  | ok r =>
    obtain ⟨hr, hempty⟩ := openInput_eq_ok ho
    rw [ho] at h
    cases h
    rw [hi] at hr
    cases hr
    rcases hempty with ⟨hfile, -⟩ | ⟨-, hempty⟩
    · rw [hf] at hfile
      cases hfile
    · exact hempty

theorem contents_written_iff {bytes : ByteArray} (hi : fs.resolve p = .ok i)
    (hbytes : ∀ {f}, fs.fileAt? i = some f → f.bytes = bytes) (hne : bytes ≠ .empty) :
    fs.contents p = .ok bytes ↔ ∃ f, fs.fileAt? i = some f ∧ f.isReadable := by
  cases hf : fs.fileAt? i with
  | none =>
    refine iff_of_false (fun h ↦ hne (bytes_eq_empty_of_contents hi hf h)) ?_
    rintro ⟨f, hsome, -⟩
    cases hsome
  | some f => simp [contents_eq_ok_iff hi hf, hbytes hf]

end FileSystem

theorem script_ne_empty (bootFile : String) : (startupScript bootFile).toUTF8 ≠ .empty := by
  intro h
  have hsize : (startupScript bootFile).utf8ByteSize = 0 := congrArg ByteArray.size h
  have hlead : "\\EFI\\BOOT\\".utf8ByteSize = 10 := rfl
  rw [startupScript, String.utf8ByteSize_append] at hsize
  omega

theorem copyFile_of_grows (hgrows : fs.Grows ∅ fs₁) (hi : fs.resolve source = .ok i)
    (hf : fs.fileAt? i = some f) (h : fs₁.copyFile source p = .ok fs') :
    ∃ j, fs₁.resolve source = .ok i ∧ fs₁.fileAt? i = some f ∧ f.isReadable ∧
      fs'.resolve p = .ok j ∧ fs₁.Grows {j} fs' ∧
      ∀ {g}, fs'.fileAt? j = some g →
        g.bytes = (if i = j then .empty else f.bytes) ∧ g.mode = f.mode := by
  obtain ⟨i', f', j, hin, hj, hcopy, hbytes⟩ := copyFile_eq_ok h
  obtain ⟨hi', hfile⟩ := openInput_eq_ok hin
  obtain rfl : i = i' := Except.ok.inj ((hgrows.resolve hi).symm.trans hi')
  have hf₁ : fs₁.fileAt? i = some f := (hgrows.fileAt? (Set.notMem_empty i)).trans hf
  obtain ⟨rfl, hread⟩ : f = f' ∧ f'.isReadable := by
    rcases hfile with ⟨hfile, hread⟩ | ⟨hfile, -⟩
    · exact ⟨Option.some.inj (hf₁.symm.trans hfile), hread⟩
    · cases hf₁.symm.trans hfile
  exact ⟨j, hi', hf₁, hread, hj, hcopy, hbytes⟩

/-- What is left where the three paths lead: `i` for the source, `j` for the copy and `k` for the
script. -/
theorem files_of_publish (h : (publish source t l).perform runner s = (.ok output, s')) :
    ∃ f i j k, s.files.resolve source = .ok i ∧ s.files.fileAt? i = some f ∧ f.isReadable ∧
      s'.files.resolve source = .ok i ∧ s'.files.resolve output = .ok j ∧
      s'.files.resolve l.startupScript = .ok k ∧
      (∀ {g}, s'.files.fileAt? k = some g → g.bytes = (startupScript t.bootFile).toUTF8) ∧
      (j ≠ k → ∃ g, s'.files.fileAt? j = some g ∧ g.mode = f.mode ∧
        g.bytes = if i = j then .empty else f.bytes) ∧
      (i ≠ j → i ≠ k → s'.files.fileAt? i = some f) := by
  obtain ⟨-, ⟨i, f, hi, hf⟩, fs₁, fs₂, fs₃, time, hmade, hcopied, htimed, hwritten⟩ :=
    calls_of_publish h
  obtain ⟨j, hi', hf₁, hread, hj, hcopy, hbytes⟩ := copyFile_of_grows hmade hi hf hcopied
  obtain ⟨j', g, hj', hg, htime, hg'⟩ := setModified_eq_ok htimed
  obtain ⟨k, hk, hwrite, hscript⟩ := writeFile_eq_ok hwritten
  obtain rfl : j = j' := Except.ok.inj (hj.symm.trans hj')
  have hrest := hcopy.trans htime
  refine ⟨f, i, j, k, hi, hf, hread, hwrite.resolve (hrest.resolve hi'),
    hwrite.resolve (htime.resolve hj), hk, hscript, fun hjk ↦ ?_, fun hij hik ↦ ?_⟩
  · obtain ⟨hb, hm⟩ := hbytes hg
    exact ⟨_, (hwrite.fileAt? hjk).trans hg', hm, hb⟩
  · exact (hwrite.fileAt? hik).trans ((hrest.fileAt? hij).trans hf₁)

/-- After a publishing that ends well the binary and the script can be read exactly if the script
is a regular file, it is neither the binary nor its copy, and the copy is not the binary itself; or
else these happen to have the same content. -/
theorem publish_delivers_iff (runner : Runner) (s : Session) (source output : Path) (t : Target)
    (l : Layout) (h : ((publish source t l).perform runner s).1 = .ok output) :
    let fs := ((publish source t l).perform runner s).2.files
    let script := (startupScript t.bootFile).toUTF8
    output = publishedFile t l ∧ ∃ bytes i j k, s.files.contents source = .ok bytes ∧
      fs.resolve source = .ok i ∧ fs.resolve output = .ok j ∧
      fs.resolve l.startupScript = .ok k ∧
      (fs.contents output = .ok bytes ∧ fs.contents source = .ok bytes ∧
          fs.contents l.startupScript = .ok script ↔
        (∃ f, fs.fileAt? k = some f ∧ f.isReadable) ∧
          (k = i ∨ k = j → bytes = script) ∧ (i = j → k ≠ j → bytes = .empty)) := by
  intro fs script
  have hperform : (publish source t l).perform runner s =
      (.ok output, ((publish source t l).perform runner s).2) := by rw [← h]
  obtain ⟨houtput, -⟩ := calls_of_publish hperform
  obtain ⟨f, i, j, k, hi, hf, hread, hi', hj, hk, hscript, hcopy, hkept⟩ :=
    files_of_publish hperform
  refine ⟨houtput, f.bytes, i, j, k, (contents_eq_ok_iff hi hf).2 ⟨hread, rfl⟩, hi', hj, hk, ?_⟩
  rw [← contents_written_iff hk hscript (script_ne_empty _)]
  -- The script is written last, so what is one file with it holds the script.
  have hshared : ∀ {p m}, fs.resolve p = .ok m → k = m → fs.contents l.startupScript = .ok script →
      (fs.contents p = .ok f.bytes ↔ f.bytes = script) := by
    rintro p m hp rfl hnsh
    rw [contents_congr (hp.trans hk.symm), hnsh, Except.ok.injEq, eq_comm]
  -- Any other copy holds what copying has left: nothing, if it went onto its own source.
  have hcopied : k ≠ j → (fs.contents output = .ok f.bytes ↔ (i = j → f.bytes = .empty)) := by
    intro hkj
    obtain ⟨g, hg, hmode, hbytes⟩ := hcopy hkj.symm
    have hgread : g.isReadable := by rwa [RegularFile.isReadable, hmode]
    rw [contents_eq_ok_iff hj hg, and_iff_right hgread, hbytes]
    split
    · next hij => simp [hij, eq_comm]
    · next hij => simp [hij]
  constructor
  · rintro ⟨hout, hin, hnsh⟩
    refine ⟨hnsh, ?_, fun hij hkj ↦ (hcopied hkj).1 hout hij⟩
    rintro (hki | hkj)
    · exact (hshared hi' hki hnsh).1 hin
    · exact (hshared hj hkj hnsh).1 hout
  · rintro ⟨hnsh, hsame, hself⟩
    have hout : fs.contents output = .ok f.bytes := by
      by_cases hkj : k = j
      · exact (hshared hj hkj hnsh).2 (hsame (.inr hkj))
      · exact (hcopied hkj).2 fun hij ↦ hself hij hkj
    refine ⟨hout, ?_, hnsh⟩
    by_cases hki : k = i
    · exact (hshared hi' hki hnsh).2 (hsame (.inl hki))
    · by_cases hij : i = j
      · subst hij
        rw [contents_congr (hi'.trans hj.symm), hout]
      · exact (contents_eq_ok_iff hi' (hkept hij (Ne.symm hki))).2 ⟨hread, rfl⟩

def linkedWorkspace (target : Path) : FileSystem where
  nodes := #[.directory 0 [("ws", 1)],
    .directory 0 [("iron.efi", 2), ("old.efi", 3), ("build", 4)],
    .file ⟨"new".toUTF8, 0o644, 5⟩, .file ⟨"old".toUTF8, 0o644, 6⟩,
    .directory 1 [("EFI", 5)], .directory 4 [("BOOT", 6)], .directory 5 [("BOOTX64.EFI", 7)],
    .link target]
  here := 0
  clock := 9

def publishLinked (target : Path) : Except Failure Path × Session :=
  (publish ⟨"/ws/iron.efi"⟩ ⟨.x64, .release, ⟨⟨"/ws"⟩⟩⟩ ⟨⟨"/ws"⟩⟩).perform
    (fun _ fs ↦ ⟨.ok 0, fs, "", "", 7⟩) (.start (linkedWorkspace target))

theorem publish_delivers_iff_link_elsewhere :
    let fs := (publishLinked ⟨"/ws/old.efi"⟩).2.files
    (publishLinked ⟨"/ws/old.efi"⟩).1 = .ok ⟨"/ws/build/EFI/BOOT/BOOTX64.EFI"⟩ ∧
      fs.contents ⟨"/ws/build/EFI/BOOT/BOOTX64.EFI"⟩ = .ok "new".toUTF8 ∧
      fs.contents ⟨"/ws/iron.efi"⟩ = .ok "new".toUTF8 ∧
      fs.contents ⟨"/ws/build/startup.nsh"⟩ = .ok (startupScript "BOOTX64.EFI").toUTF8 := by
  intro fs
  have hok : (publishLinked ⟨"/ws/old.efi"⟩).1 = .ok ⟨"/ws/build/EFI/BOOT/BOOTX64.EFI"⟩ := rfl
  obtain ⟨-, bytes, i, j, k, hbytes, hi, hj, hk, hiff⟩ := publish_delivers_iff _ _ _ _ _ _ hok
  obtain rfl : bytes = "new".toUTF8 := Except.ok.inj (hbytes.symm.trans rfl)
  obtain rfl : i = 2 := Except.ok.inj (hi.symm.trans rfl)
  obtain rfl : j = 3 := Except.ok.inj (hj.symm.trans rfl)
  obtain rfl : k = 8 := Except.ok.inj (hk.symm.trans rfl)
  exact ⟨hok, hiff.2 ⟨⟨_, rfl, by decide⟩, by decide, by decide⟩⟩

/-- A link to the binary itself is followed too, and nothing of the binary is left. -/
theorem publish_onto_itself :
    let fs := (publishLinked ⟨"/ws/iron.efi"⟩).2.files
    (publishLinked ⟨"/ws/iron.efi"⟩).1 = .ok ⟨"/ws/build/EFI/BOOT/BOOTX64.EFI"⟩ ∧
      (linkedWorkspace ⟨"/ws/iron.efi"⟩).contents ⟨"/ws/iron.efi"⟩ = .ok "new".toUTF8 ∧
      fs.contents ⟨"/ws/iron.efi"⟩ = .ok .empty ∧
      fs.contents ⟨"/ws/build/EFI/BOOT/BOOTX64.EFI"⟩ = .ok .empty ∧
      ByteArray.empty ≠ "new".toUTF8 :=
  ⟨rfl, rfl, rfl, rfl, by decide⟩

end BootMedia
