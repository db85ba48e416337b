import BootMedia.Proofs.History
import BootMedia.Proofs.Interleaving
import BootMedia.Proofs.Scene

namespace BootMedia

open FileSystem Function

variable {ι : Type} {fs fs' : FileSystem} {xs ns : List String} {c : FileCall} {f : RegularFile}
  {o : Output} {i : ι}

namespace Scene

variable {S : Scene ι}

def Relies (S : Scene ι) (fs fs' : FileSystem) : Prop :=
  S.Intact fs → S.Intact fs' ∧ fs.Grows Set.univ fs'

theorem withstands_makeDirectories (S : Scene ι) (i : ι) {ps : List Path}
    (hl : Ladder S.base ns ps) (hns : ns <+: S.lead ++ Layout.bootNames) (h : S.Intact fs) :
    (Plan.makeDirectories ps).Withstands S.Relies (S.Acts i)
      (fun r fs ↦ r = .ok (.ok ()) ∧ S.Intact fs ∧
        fs.view rootInode (S.way ++ ns) = some .folder) fs := by
  induction hl generalizing fs with
  | bottom above hp =>
    refine .attempt_bind fun fs₁ hR ↦ ?_
    obtain ⟨h₁, -⟩ := hR h
    have hroot : fs₁.view rootInode (S.way ++ []) = some .folder := by
      simpa using h₁.shows.folder_root
    obtain ⟨fs₂, hc, ha, hv⟩ := h₁.ensureDirectory hp hns hroot i
    rw [FileCall.outcome_of_ok hc]
    exact ⟨ha, .done ⟨rfl, ha.intact, hv⟩⟩
  | @step p name ns ps hp hl ih =>
    have hns' : ns <+: S.lead ++ Layout.bootNames := (List.prefix_append _ _).trans hns
    have hentry : ∀ n ∈ ns ++ [name], IsEntryName n :=
      fun n hn ↦ S.site.isEntryName_boot n (hns.subset hn)
    refine .attempt_bind fun fs₁ hR ↦ ?_
    obtain ⟨h₁, -⟩ := hR h
    rcases h₁.folders ns hns' hl.ne_nil with hn | hn
    · -- Nothing is above yet. By the next turn there may be, and then there is no more to do.
      have herr := h₁.shows.ensureDirectory_of_missing_above hp hentry
        (fun us hus ↦ h₁.folders us (hus.trans hns')) hn
      have hc : (FileCall.ensureDirectory p).perform fs₁ = .error ⟨p, .notFound⟩ := by
        rw [FileCall.perform, herr]
        rfl
      rw [FileCall.outcome_of_error hc]
      refine ⟨h₁.acts_same rfl i, (ih hns' h₁).bind ?_⟩
      rintro r fs₂ ⟨rfl, h₂, hv₂⟩
      refine ⟨_, rfl, .attempt_bind (k := pure) fun fs₃ hR₃ ↦ ?_⟩
      obtain ⟨h₃, hg₃⟩ := hR₃ h₂
      obtain ⟨fs₄, hc₄, ha, hv⟩ := h₃.ensureDirectory hp hns (hg₃.view_folder hv₂) i
      rw [FileCall.outcome_of_ok hc₄]
      exact ⟨ha, .done ⟨rfl, ha.intact, hv⟩⟩
    · obtain ⟨fs₂, hc, ha, hv⟩ := h₁.ensureDirectory hp hns hn i
      rw [FileCall.outcome_of_ok hc]
      exact ⟨ha, .done ⟨rfl, ha.intact, hv⟩⟩

/-- Whatever the others do, a job ends well. -/
theorem withstands_plan (S : Scene ι) (i : ι) (h : S.Intact fs) :
    ((S.jobs i).plan S.layout).Withstands S.Relies (S.Acts i)
      (fun r _ ↦ r = .ok (publishedFile (S.jobs i).target S.layout)) fs := by
  refine .require_bind fun fs₁ hR ↦ ?_
  obtain ⟨h₁, -⟩ := hR h
  refine ⟨fs₁, h₁.requireFile i, h₁.acts_same rfl i, ?_⟩
  have hladder : Ladder S.base (S.lead ++ Layout.bootNames) S.layout.bootDirectory.climb :=
    ladder_climb S.site.boot (by simp [Layout.bootNames])
  refine (S.withstands_makeDirectories i hladder List.prefix_rfl h₁).bind ?_
  rintro r fs₂ ⟨rfl, h₂, hboot⟩
  refine ⟨_, rfl, .require_bind fun fs₃ hR₃ ↦ ?_⟩
  obtain ⟨h₃, hg₃⟩ := hR₃ h₂
  obtain ⟨fs₄, g, hcopied, ha₄, hv⟩ := h₃.copy (hg₃.view_folder hboot) i
  refine ⟨fs₄, hcopied, ha₄, .require_bind fun fs₅ hR₅ ↦ ?_⟩
  obtain ⟨h₅, hg₅⟩ := hR₅ ha₄.intact
  -- Others may have copied onto the file by now, and it can still be given a time.
  obtain ⟨g', hv'⟩ := h₅.exists_output_file hg₅.toExtends hv
  obtain ⟨fs₆, htimed, ha₆⟩ := h₅.copyTime hv'
  refine ⟨fs₆, htimed, ha₆, .require_bind fun fs₇ hR₇ ↦ ?_⟩
  obtain ⟨h₇, hg₇⟩ := hR₇ ha₆.intact
  have hstays := hg₃.trans (ha₄.grows.trans (hg₅.trans (ha₆.grows.trans hg₇)))
  obtain ⟨fs₈, hwritten, ha₈⟩ := h₇.write (hstays.view_folder hboot) i
  exact ⟨fs₈, hwritten, ha₈, .print _ (.print _ (.done rfl))⟩

structure Accounts (S : Scene ι) (calls : List (ι × FileCall)) (fs : FileSystem) : Prop where
  intact : S.Intact fs
  last : ∀ o i, lastWriter? calls (o.path S.layout) = some i →
    ∃ bytes, (S.jobs i).Delivers S.before o bytes ∧ S.held fs o = some bytes

theorem Acts.accounts {calls : List (ι × FileCall)} (h : S.Acts i c fs fs')
    (ha : S.Accounts calls fs) : S.Accounts (calls ++ [(i, c)]) fs' := by
  refine ⟨h.intact, fun o j hj ↦ ?_⟩
  by_cases hc : c.written? = some (o.path S.layout)
  · rw [lastWriter?_append_of_written calls i hc] at hj
    obtain rfl := Option.some.inj hj
    exact h.written o hc
  · rw [lastWriter?_append_of_not_written calls i hc] at hj
    rw [h.kept o hc]
    exact ha.last o j hj

theorem rules (S : Scene ι) :
    Interleaving.Rules S.Relies S.Acts
      (fun i (r : Except Failure Path) _ ↦ r = .ok (publishedFile (S.jobs i).target S.layout))
      S.Accounts where
  refl fs h := ⟨h, .refl _ _⟩
  trans h h' hi := by
    obtain ⟨hi', hg⟩ := h hi
    obtain ⟨hi'', hg'⟩ := h' hi'
    exact ⟨hi'', hg.trans hg'⟩
  grant h _ := ⟨h.intact, h.grows⟩
  result _ h := h
  calls h ha := h.accounts ha

variable [DecidableEq ι]

def start (S : Scene ι) : Interleaving ι Path :=
  .start (fun i ↦ (S.jobs i).plan S.layout) S.before

theorem coexists_run (S : Scene ι) (runner : Runner) (order : List ι) :
    (S.start.run runner order).Coexists S.Relies S.Acts
      (fun i r _ ↦ r = .ok (publishedFile (S.jobs i).target S.layout)) S.Accounts := by
  apply Interleaving.Coexists.run _ S.rules
  exact ⟨fun i ↦ S.withstands_plan i S.intact_before, S.intact_before, nofun⟩

end Scene

def Layout.publishSteps (l : Layout) : Nat := 2 * l.bootDirectory.climb.length + 6

theorem within_makeDirectories (ps : List Path) :
    (Plan.makeDirectories ps).Within (2 * ps.length) := by
  induction ps with
  | nil => exact .done _ _
  | cons p above ih =>
    have hlen : 2 * (p :: above).length = 1 + 2 * above.length + 1 := by
      rw [List.length_cons]
      omega
    rw [hlen]
    refine .call _ fun r ↦ ?_
    cases r with
    | ok a => exact .done _ _
    | error fault =>
      change (if fault.cause = .notFound then _ else _ : Plan _).Within _
      split
      · refine ih.bind fun made ↦ ?_
        cases made with
        | ok a => exact .call _ fun r ↦ .done _ _
        | error fault => exact .done _ _
      · exact .done _ _

theorem Job.within_plan (j : Job) (l : Layout) : (j.plan l).Within l.publishSteps := by
  have hrest : 2 * l.bootDirectory.climb.length + 6 =
      5 + 2 * l.bootDirectory.climb.length + 1 := by omega
  rw [Layout.publishSteps, hrest]
  refine .require_bind _ _ ((within_makeDirectories _).bind fun made ↦ ?_)
  cases made with
  | ok a =>
    refine .require_bind _ _ (.require_bind _ _ (.require_bind _ _ ?_))
    exact .print _ (.print _ (.done _ _))
  | error fault => exact .done _ _

theorem Job.needs_copy (j : Job) (l : Layout) :
    (j.plan l).Needs (.copy j.source (publishedFile j.target l)) := by
  refine .bind _ fun _ ↦ .bind _ fun made ↦ ?_
  cases made with
  | ok a => exact .require_bind _ _ _
  | error fault => exact .failed _

theorem Job.needs_write (j : Job) (l : Layout) :
    (j.plan l).Needs (.write l.startupScript (startupScript j.target.bootFile)) := by
  refine .bind _ fun _ ↦ .bind _ fun made ↦ ?_
  cases made with
  | ok a => exact .bind _ fun _ ↦ .bind _ fun _ ↦ .require_bind _ _ _
  | error fault => exact .failed _

def FileSystem.LeadsTo (fs : FileSystem) (p : Path) (xs : List String) : Prop :=
  ∃ k, fs.resolve p = .ok k ∧ fs.descend rootInode xs = some k

/-- What jobs leave of the places in a tree: each is as it was, unless a path of the boot media
leads to it. -/
inductive Job.Changes (jobs : ι → Job) (l : Layout) (fs fs' : FileSystem) (xs : List String) : Prop
  | folder {p : Path} : p ∈ l.bootDirectory.climb → fs'.LeadsTo p xs →
      fs.view rootInode xs = none → fs'.view rootInode xs = some .folder → Changes jobs l fs fs' xs
  | script : fs'.LeadsTo l.startupScript xs → Changes jobs l fs fs' xs
  | bootFile (i : ι) : fs'.LeadsTo (publishedFile (jobs i).target l) xs → Changes jobs l fs fs' xs

namespace Scene.Intact

variable {S : Scene ι}

theorem view_bootFile (h : S.Intact fs) {a : Architecture}
    (ha : ∀ i, (S.jobs i).target.architecture ≠ a) :
    fs.view rootInode (S.spot (.bootFile a)) = S.before.view rootInode (S.spot (.bootFile a)) := by
  by_contra hne
  rcases h.frame _ hne with ⟨ns, hns, -, he, -⟩ | ⟨o, ho, he⟩
  · exact ne_spot hns he.symm
  · obtain rfl := spot_injective he
    rcases ho with ho | ⟨i, ho⟩
    · cases ho
    · exact ha i (Output.bootFile.inj ho).symm

theorem changes (h : S.Intact fs) (hxs : fs.view rootInode xs ≠ S.before.view rootInode xs) :
    Job.Changes S.jobs S.layout S.before fs xs := by
  rcases h.frame xs hxs with ⟨ns, hns, hne, rfl, hnone, hfolder⟩ | ⟨o, ho, rfl⟩
  · have hladder := ladder_climb S.site.boot (by simp [Layout.bootNames])
    obtain ⟨p, hp, hbelow⟩ := hladder.exists_isBelow hns hne
    obtain ⟨k, -, -, hk, -⟩ := view_eq_folder.1 hfolder
    have hentry : ∀ n ∈ ns, IsEntryName n := fun n hn ↦ S.site.isEntryName_boot n (hns.subset hn)
    exact .folder hp ⟨k, h.shows.resolve_of_descend hbelow hentry hk, hk⟩ hnone hfolder
  · have hleads : fs.LeadsTo (o.path S.layout) (S.spot o) := by
      cases hk : fs.descend rootInode (S.spot o) with
      | none =>
        -- What was there before would still be there.
        have hbefore : S.before.view rootInode (S.spot o) = none := by
          rw [S.publishable.tree.view_eq_none]
          by_contra hsome
          obtain ⟨k, hk'⟩ := Option.ne_none_iff_exists'.1 hsome
          rw [h.grows.descend hk'] at hk
          cases hk
        rw [hbefore, h.shows.tree.view_eq_none.2 hk] at hxs
        exact absurd rfl hxs
      | some k =>
        exact ⟨k, h.shows.resolve_of_descend (S.site.output o) (S.site.isEntryName_output o) hk, hk⟩
    rcases ho with rfl | ⟨i, rfl⟩
    · exact .script hleads
    · exact .bootFile i hleads

end Scene.Intact

/-- Jobs that take turns in any order all end well. The script is that of the job that wrote it
last, and each boot file is the source that was copied last of those for its architecture. Nothing
else is changed, but that the directories of the boot media are there. -/
theorem interleaved_publish [DecidableEq ι] (l : Layout) (fs : FileSystem) (jobs : ι → Job)
    (h : Publishable l fs) (hjobs : ∀ i, (jobs i).HasSource l fs) (runner : Runner)
    (order : List ι) :
    let plans : ι → Plan Path := fun i ↦ publish (jobs i).source (jobs i).target l
    let x := (Interleaving.start plans fs).run runner order
    let fs' := x.session.files
    let last := lastWriter? x.calls
    (∀ i, l.publishSteps ≤ order.count i → ∃ r, x.plans i = .done r) ∧
    (∀ i r, x.plans i = .done r → r = .ok (publishedFile (jobs i).target l) ∧
      (last l.startupScript).isSome ∧ (last (publishedFile (jobs i).target l)).isSome) ∧
    (∀ i, last l.startupScript = some i →
      fs'.read? l.startupScript = some (startupScript (jobs i).target.bootFile).toUTF8) ∧
    (∀ a i, last (l.bootDirectory / a.bootFile) = some i → (jobs i).target.architecture = a ∧
      ∃ f, fs.file? (jobs i).source = some f ∧
        fs'.read? (l.bootDirectory / a.bootFile) = some f.bytes) ∧
    (∀ a, (∀ i, (jobs i).target.architecture ≠ a) →
      fs'.file? (l.bootDirectory / a.bootFile) = fs.file? (l.bootDirectory / a.bootFile)) ∧
    ∀ xs, fs'.view rootInode xs ≠ fs.view rootInode xs → Job.Changes jobs l fs fs' xs := by
  intro plans x fs' last
  obtain ⟨base, lead, way, hsite, hshows⟩ := h.exists_site
  let S : Scene ι := ⟨l, jobs, fs, base, way, lead, h, hjobs, hsite, hshows⟩
  have hx : x.Coexists S.Relies S.Acts _ S.Accounts := S.coexists_run runner order
  have hi : S.Intact fs' := hx.calls.intact
  refine ⟨fun i ↦ ?_, fun i r hr ↦ ?_, fun i hi' ↦ ?_, fun a i hi' ↦ ?_, fun a ha ↦ ?_,
    fun xs hxs ↦ hi.changes hxs⟩
  · exact Interleaving.exists_done_run runner ((jobs i).within_plan l)
  · obtain rfl := hx.result hr
    have hwrite := Interleaving.mem_calls_run runner ((jobs i).needs_write l) hr
    have hcopy := Interleaving.mem_calls_run runner ((jobs i).needs_copy l) hr
    exact ⟨rfl, isSome_lastWriter? hwrite rfl, isSome_lastWriter? hcopy rfl⟩
  · obtain ⟨bytes, hbytes, hheld⟩ := hx.calls.last .script i hi'
    cases hbytes with
    | script => exact (hi.read?_eq_held .script).trans hheld
  · obtain ⟨bytes, hbytes, hheld⟩ := hx.calls.last (.bootFile a) i hi'
    generalize ho : Output.bootFile a = o at hbytes
    cases hbytes with
    | script => cases ho
    | @bootFile f hf =>
      refine ⟨(Output.bootFile.inj ho).symm, f, hf, ?_⟩
      exact (hi.read?_eq_held (.bootFile a)).trans hheld
  · ext f
    change fs'.file? (Output.path S.layout (.bootFile a)) = some f ↔
      fs.file? (Output.path S.layout (.bootFile a)) = some f
    rw [hi.file?_eq_some_iff, S.intact_before.file?_eq_some_iff, hi.view_bootFile ha]

def unmade : Layout := ⟨⟨"/new/./ws"⟩⟩

theorem publishable_withBinary {f : RegularFile} (hread : f.isReadable) (hwrite : f.isWritable) :
    Publishable unmade (withBinary f) := by
  have hw := workspace_withBinary hread hwrite
  refine ⟨hw.tree, ⟨[], rfl⟩, ⟨[], ["new", ".", "ws"], rootInode, rfl, .done _, rfl, by decide⟩,
    fun p hp ↦ .inl ?_, fun o ↦ .inl ?_⟩
  · change _ = _
    rcases hp with _ | ⟨_, _ | ⟨_, _ | ⟨_, ⟨⟩⟩⟩⟩ <;> rfl
  · change _ = _
    rcases o with _ | _ | _ | _ <;> rfl

def sharedBinary (x64 : Bool) : Job :=
  ⟨⟨"/target/x86_64-unknown-uefi/debug/iron.efi"⟩, ⟨if x64 then .x64 else .aa64, .debug, unmade⟩⟩

theorem hasSource_sharedBinary {f : RegularFile} (hread : f.isReadable) (hwrite : f.isWritable)
    (x64 : Bool) : (sharedBinary x64).HasSource unmade (withBinary f) := by
  have hfound : (withBinary f).resolve ⟨"/target/x86_64-unknown-uefi/debug/iron.efi"⟩ = .ok 4 := rfl
  have habsent : (withBinary f).resolve unmade.mediaDirectory = .error .notFound := rfl
  refine ⟨4, f, hfound, rfl, hread, hwrite, fun m ns hm ↦ ?_⟩
  rw [habsent] at hm
  cases hm

theorem interleaved_publish_shared_binary :
    let fs := withBinary ⟨"iron".toUTF8, 0o755, 7⟩
    let x := (Interleaving.start
      (fun i ↦ publish (sharedBinary i).source (sharedBinary i).target unmade) fs).run
      (fun _ fs ↦ ⟨.ok 0, fs, "", "", 0⟩) (List.replicate 16 [true, false]).flatten
    Publishable unmade fs ∧ (∀ i, (sharedBinary i).HasSource unmade fs) ∧
      (∀ i, ∃ r, x.plans i = .done r) ∧
      lastWriter? x.calls unmade.startupScript = some false ∧
      x.session.files.read? unmade.startupScript = some (startupScript "BOOTAA64.EFI").toUTF8 ∧
      x.session.files.read? (unmade.bootDirectory / "BOOTX64.EFI") = some "iron".toUTF8 := by
  intro fs x
  have hpublishable : Publishable unmade fs := publishable_withBinary (by decide) (by decide)
  have hsource : ∀ i, (sharedBinary i).HasSource unmade fs :=
    hasSource_sharedBinary (by decide) (by decide)
  obtain ⟨hdone, -, hscript, hboot, -⟩ :=
    interleaved_publish unmade fs sharedBinary hpublishable hsource
      (fun _ fs ↦ ⟨.ok 0, fs, "", "", 0⟩) (List.replicate 16 [true, false]).flatten
  have hlast : lastWriter? x.calls unmade.startupScript = some false := by decide +kernel
  have hlastBoot : lastWriter? x.calls (unmade.bootDirectory / "BOOTX64.EFI") = some true := by
    decide +kernel
  obtain ⟨-, f, hf, hread⟩ := hboot .x64 true hlastBoot
  have hbinary : fs.file? (sharedBinary true).source = some ⟨"iron".toUTF8, 0o755, 7⟩ :=
    file?_withBinary _
  obtain rfl := Option.some.inj (hf.symm.trans hbinary)
  refine ⟨hpublishable, hsource, fun i ↦ hdone i ?_, hlast, hscript false hlast, hread⟩
  cases i <;> decide

def FileSystem.withFile : FileSystem :=
  ((FileSystem.empty.addNode 0 "iron.efi" (.file ⟨"iron".toUTF8, 0o644, 7⟩)).addNode 0 "ws"
    (.directory 0 [])).addNode 2 "build" (.file ⟨.empty, 0o644, 7⟩)

def steppingUp : Job := ⟨⟨"/iron.efi"⟩, ⟨.x64, .debug, ⟨⟨"/new/../ws"⟩⟩⟩⟩

theorem perform_steppingUp :
    ((steppingUp.plan steppingUp.target.layout).perform (fun _ fs ↦ ⟨.ok 0, fs, "", "", 0⟩)
      (.start withFile)).1 =
      .error (.file steppingUp.target.layout.bootDirectory .alreadyExists) := by
  decide +kernel

/-- A step up from a directory that is missing leads elsewhere once the directory is made: here
nothing can be found at any path of the boot media, and a file is in their way all the same. -/
theorem publish_behind_step_up :
    let l := steppingUp.target.layout
    let x := (Interleaving.start (fun _ : Unit ↦ steppingUp.plan l) withFile).run
      (fun _ fs ↦ ⟨.ok 0, fs, "", "", 0⟩) (List.replicate l.publishSteps ())
    withFile.IsTree ∧ steppingUp.HasSource l withFile ∧
      (∀ p ∈ [l.mediaDirectory, l.mediaDirectory / "EFI", l.bootDirectory], withFile.IsAbsent p) ∧
      (∀ o : Output, withFile.IsAbsent (o.path l)) ∧
      x.plans () = .done (.error (.file l.bootDirectory .alreadyExists)) := by
  have ht : withFile.IsTree :=
    ((isTree_empty.addNode rfl rfl (.file _)).addNode rfl rfl .directory).addNode rfl rfl (.file _)
  have hfound : withFile.resolve steppingUp.source = .ok 1 := rfl
  have habsent : withFile.resolve steppingUp.target.layout.mediaDirectory = .error .notFound := rfl
  refine ⟨ht, ⟨1, ⟨"iron".toUTF8, 0o644, 7⟩, hfound, rfl, rfl, rfl, fun m ns hm ↦ ?_⟩, ?_, ?_, ?_⟩
  · rw [habsent] at hm
    cases hm
  · rintro p (_ | ⟨_, _ | ⟨_, _ | ⟨_, ⟨⟩⟩⟩⟩) <;> exact rfl
  · rintro (_ | _ | _ | _) <;> exact rfl
  · have hend := Interleaving.run_replicate
      (x := .start (fun _ : Unit ↦ steppingUp.plan steppingUp.target.layout) withFile) (i := ())
      (fun _ fs ↦ ⟨.ok 0, fs, "", "", 0⟩) (steppingUp.within_plan steppingUp.target.layout)
    exact hend.1.trans (congrArg Plan.done perform_steppingUp)

end BootMedia
