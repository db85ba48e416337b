import BootMedia.Proofs.Directories

namespace BootMedia

open FileSystem Function

variable {runner : Runner} {s s' : Session} {fs fs' : FileSystem} {root p : Path}
  {ns us ws w xs : List String} {v : List String → Option Node} {f : RegularFile}

namespace Layout

def bootNames : List String := [mediaName, "EFI", "BOOT"]

def scriptNames : List String := [mediaName, scriptName]

end Layout

def Architecture.publishedNames (a : Architecture) : List String :=
  Layout.bootNames ++ [a.bootFile]

def artifactNames (a : Architecture) (c : Configuration) : List String :=
  ["target", a.compiled ++ tripleEnd, c.outputSubdirectory, artifactName]

theorem isEntryName_bootNames : ∀ n ∈ Layout.bootNames, IsEntryName n := by decide

theorem isEntryName_scriptNames : ∀ n ∈ Layout.scriptNames, IsEntryName n := by decide

theorem isEntryName_publishedNames (a : Architecture) :
    ∀ n ∈ a.publishedNames, IsEntryName n := by
  cases a <;> decide

theorem isEntryName_artifactNames (a : Architecture) (c : Configuration) :
    ∀ n ∈ artifactNames a c, IsEntryName n := by
  cases a <;> cases c <;> decide

theorem width_le_width_artifactNames (a b : Architecture) (c : Configuration) :
    ∀ ns ∈ [Layout.bootNames, Layout.scriptNames, b.publishedNames],
      Path.width ns ≤ Path.width (artifactNames a c) := by
  cases a <;> cases b <;> cases c <;> decide

theorem publishedNames_injective {a b : Architecture} (h : a.publishedNames = b.publishedNames) :
    a = b := by
  have hs := List.append_cancel_left h
  exact Architecture.bootFile_injective (List.cons.inj hs).1

theorem publishedNames_ne_scriptNames (a : Architecture) :
    a.publishedNames ≠ Layout.scriptNames := by
  cases a <;> decide

theorem artifactNames_ne_publishedNames (a b : Architecture) (c : Configuration) :
    artifactNames a c ≠ b.publishedNames := by
  rintro h
  exact absurd (List.cons.inj h).1 (by decide)

theorem artifactNames_not_above (a : Architecture) (c : Configuration) (ns : List String) :
    ¬artifactNames a c <+: Layout.mediaName :: ns := by
  intro h
  exact absurd (List.cons_prefix_cons.1 h).1 (by decide)

/-- What is seen after `f` has been published for `a`, with the script `g`. -/
def published (v : List String → Option Node) (w : List String) (a : Architecture)
    (f g : RegularFile) : List String → Option Node :=
  update (update (withFolders v w Layout.bootNames) (w ++ a.publishedNames) (some (.file f)))
    (w ++ Layout.scriptNames) (some (.file g))

theorem published_script (v : List String → Option Node) (w : List String) (a : Architecture)
    (f g : RegularFile) : published v w a f g (w ++ Layout.scriptNames) = some (.file g) :=
  update_self ..

theorem published_bootFile (v : List String → Option Node) (w : List String) (a : Architecture)
    (f g : RegularFile) : published v w a f g (w ++ a.publishedNames) = some (.file f) := by
  have hne := (List.append_right_inj w).not.2 (publishedNames_ne_scriptNames a)
  rw [published, update_of_ne hne, update_self]

theorem published_of_ne {a : Architecture} {g : RegularFile} (hs : ns ≠ Layout.scriptNames)
    (hb : ns ≠ a.publishedNames) :
    published v w a f g (w ++ ns) = withFolders v w Layout.bootNames (w ++ ns) := by
  rw [published, update_of_ne ((List.append_right_inj w).not.2 hs),
    update_of_ne ((List.append_right_inj w).not.2 hb)]

theorem published_outside {a : Architecture} {g : RegularFile}
    (h : ¬w ++ [Layout.mediaName] <+: xs) :
    published v w a f g xs = v xs := by
  have hfar : ∀ ns, xs ≠ w ++ Layout.mediaName :: ns := by
    rintro ns rfl
    exact h ⟨ns, by simp⟩
  have hs : xs ≠ w ++ Layout.scriptNames := hfar _
  have hb : xs ≠ w ++ a.publishedNames := hfar _
  have hm : w ++ [Layout.mediaName] <+: w ++ Layout.bootNames :=
    (List.prefix_append_right_inj w).2 ⟨_, rfl⟩
  rw [published, update_of_ne hs, update_of_ne hb]
  refine if_neg fun ⟨hx, hlen⟩ ↦ h (List.prefix_of_prefix_length_le hm hx ?_)
  rw [List.length_append, List.length_singleton]
  omega

theorem isBelow_of_le {ms : List String} (hb : root.text ≠ "") (hns : ∀ n ∈ ns, IsEntryName n)
    (hne : ns ≠ []) (hms : ∀ n ∈ ms, IsEntryName n) (hle : Path.width ns ≤ Path.width ms)
    (hne' : ms ≠ []) (h : (root.down ms).refusal? = none) : (root.down ns).IsBelow root ns := by
  obtain ⟨hnull, -, hsize⟩ := Path.refusal?_eq_none.1 h
  have hns' : ∀ n ∈ ns, Path.IsName n := fun n hn ↦ (hns n hn).1
  have hms' : ∀ n ∈ ms, Path.IsName n := fun n hn ↦ (hms n hn).1
  have hsize' := Path.size_down hb hns' hne
  have hsize'' := Path.size_down hb hms' hne'
  refine Path.isBelow_down hns' (dot_not_mem hns) hne (Path.refusal?_eq_none.2 ⟨?_, ?_, ?_⟩)
  · rw [Path.mem_down_iff (by decide) hms'] at hnull
    rw [Path.mem_down_iff (by decide) hns']
    rintro (hmem | ⟨n, hn, hmem⟩)
    · exact hnull (.inl hmem)
    · exact (hns n hn).2.2.2.2 hmem
  · exact Path.text_down_ne_empty hb hns'
  · omega

section Publish

variable {a : Architecture} {c : Configuration} {l : Layout}

theorem artifact_eq (a : Architecture) (c : Configuration) (l : Layout) :
    (Target.mk a c l).artifact = l.root.down (artifactNames a c) := rfl

theorem file?_artifact (h : fs.Shows l.root w v)
    (hf : fs.file? (l.root.down (artifactNames a c)) = some f) :
    (l.root.down (artifactNames a c)).IsBelow l.root (artifactNames a c) ∧
      v (w ++ artifactNames a c) = some (.file f) := by
  have hns := isEntryName_artifactNames a c
  obtain ⟨i, hi, -⟩ := file?_eq_some.1 hf
  have hp := Path.isBelow_down (fun n hn ↦ (hns n hn).1) (dot_not_mem hns) (List.cons_ne_nil _ _)
    (refusal?_of_resolve hi)
  exact ⟨hp, (h.file?_eq_some_iff hp hns).1 hf⟩

/-- Where the binary can be found, the paths of the boot media can be walked. -/
theorem isBelow_media (h : fs.Shows l.root w v) (hb : l.root.text ≠ "")
    (hf : fs.file? (l.root.down (artifactNames a c)) = some f) :
    (l.root.down Layout.bootNames).IsBelow l.root Layout.bootNames ∧
      (l.root.down Layout.scriptNames).IsBelow l.root Layout.scriptNames ∧
      ∀ b : Architecture, (l.root.down b.publishedNames).IsBelow l.root b.publishedNames := by
  have haccepted := (file?_artifact h hf).1.accepted
  have hbelow : ∀ b : Architecture, ∀ ns ∈ [Layout.bootNames, Layout.scriptNames, b.publishedNames],
      (∀ n ∈ ns, IsEntryName n) → ns ≠ [] → (l.root.down ns).IsBelow l.root ns :=
    fun b ns hns he hne ↦ isBelow_of_le hb he hne
      (isEntryName_artifactNames a c) (width_le_width_artifactNames a b c ns hns)
      (List.cons_ne_nil _ _) haccepted
  refine ⟨hbelow a _ (by simp) isEntryName_bootNames (List.cons_ne_nil _ _),
    hbelow a _ (by simp) isEntryName_scriptNames (List.cons_ne_nil _ _), fun b ↦ ?_⟩
  exact hbelow b _ (by simp) (isEntryName_publishedNames b) (List.cons_ne_nil _ _)

theorem publish_of_missing (t : Target) (l : Layout) (hf : s.files.file? t.artifact = none) :
    (publish t.artifact t l).perform runner s = (.error (.missingArtifact t.artifact), s) := by
  have hc : (FileCall.requireFile t.artifact).perform s.files = .error ⟨t.artifact, .notFound⟩ := by
    rw [FileCall.perform, isFile, hf]
    rfl
  rw [publish, Plan.perform_require_bind, Session.call_of_error hc]

theorem perform_publish_of_calls {source : Path} {t : Target} {s₁ s₂ s₃ s₄ : Session}
    (h : s.call (.requireFile source) = (.ok (), s))
    (h₁ : (Plan.makeDirectories l.bootDirectory.climb).perform runner s = (.ok (.ok ()), s₁))
    (h₂ : s₁.call (.copy source (publishedFile t l)) = (.ok (), s₂))
    (h₃ : s₂.call (.copyTime source (publishedFile t l)) = (.ok (), s₃))
    (h₄ : s₃.call (.write l.startupScript (startupScript t.bootFile)) = (.ok (), s₄)) :
    ∃ s', (publish source t l).perform runner s = (.ok (publishedFile t l), s') ∧
      s'.files = s₄.files := by
  rw [publish, Plan.perform_require_bind, h]
  dsimp only
  rw [Plan.perform_bind, h₁]
  dsimp only
  rw [Plan.perform_require_bind, h₂]
  dsimp only
  rw [Plan.perform_require_bind, h₃]
  dsimp only
  rw [Plan.perform_require_bind, h₄]
  exact ⟨_, rfl, rfl⟩

/-- A binary is published as it is: nothing changes but the directories that are missing, the boot
file of its architecture and the script. -/
theorem perform_publish (h : s.files.Shows l.root w v) (hb : l.root.text ≠ "")
    (hf : s.files.file? (Target.mk a c l).artifact = some f) (hread : f.isReadable)
    (hwrite : f.isWritable) (hdirs : FoldersOrNothing v w Layout.bootNames)
    (hboot : IsOutput (v (w ++ a.publishedNames)))
    (hscript : IsOutput (v (w ++ Layout.scriptNames)))
    (runner : Runner) :
    ∃ s' g, (publish (Target.mk a c l).artifact ⟨a, c, l⟩ l).perform runner s =
        (.ok (publishedFile ⟨a, c, l⟩ l), s') ∧
      s'.files.Shows l.root w (published v w a f g) ∧
      g.bytes = (startupScript a.bootFile).toUTF8 ∧ g.isWritable := by
  rw [artifact_eq] at hf ⊢
  obtain ⟨hsource, hv⟩ := file?_artifact h hf
  obtain ⟨hdir, hnsh, hpub⟩ := isBelow_media h hb hf
  -- The directories.
  obtain ⟨s₁, hmade, hs₁⟩ := Plan.perform_makeDirectories
    (ladder_climb hdir (List.cons_ne_nil _ _)) isEntryName_bootNames h hdirs runner
  -- The boot file.
  have hv₁ : withFolders v w Layout.bootNames (w ++ artifactNames a c) = some (.file f) := by
    rw [Layout.bootNames, withFolders_of_not_above (artifactNames_not_above a c _), hv]
  have hboot₁ : IsOutput (withFolders v w Layout.bootNames (w ++ a.publishedNames)) := by
    rwa [Architecture.publishedNames, withFolders_of_not_above (not_prefix_append_singleton _ _)]
  obtain ⟨j, hj, -⟩ := hs₁.exists_file hv₁
  have hne := (List.append_right_inj w).not.2 (artifactNames_ne_publishedNames a a c)
  obtain ⟨fs₂, fs₃, hcopied, htimed, hs₃⟩ :=
    hs₁.perform_copy_copyTime (hpub a) (isEntryName_publishedNames a) rfl
      (withFolders_of_above List.prefix_rfl (List.cons_ne_nil _ _)) hboot₁
      (hs₁.resolve_of_descend hsource (isEntryName_artifactNames a c) hj) hj hv₁ hread hwrite hne
  -- The script.
  have hmedia : update (withFolders v w Layout.bootNames) (w ++ a.publishedNames)
      (some (.file f)) (w ++ [Layout.mediaName]) = some .folder := by
    rw [update_of_ne ((List.append_right_inj w).not.2
      (by simp [Architecture.publishedNames, Layout.bootNames]))]
    exact withFolders_of_above ⟨_, rfl⟩ (List.cons_ne_nil _ _)
  have hscript₃ : IsOutput (update (withFolders v w Layout.bootNames) (w ++ a.publishedNames)
      (some (.file f)) (w ++ Layout.scriptNames)) := by
    rwa [update_of_ne ((List.append_right_inj w).not.2 (publishedNames_ne_scriptNames a).symm),
      withFolders_of_not_above (by decide)]
  obtain ⟨fs₄, g, hwritten, hs₄, hg, hg'⟩ := hs₃.writeFile hnsh isEntryName_scriptNames rfl hmedia
    hscript₃ (startupScript a.bootFile).toUTF8
  have hfound : (FileCall.requireFile (l.root.down (artifactNames a c))).perform s.files =
      .ok s.files := by
    rw [FileCall.perform, isFile, hf]
    rfl
  obtain ⟨s', hs', he⟩ := perform_publish_of_calls (t := ⟨a, c, l⟩)
    (Session.call_of_ok hfound) hmade (Session.call_of_ok hcopied) (Session.call_of_ok htimed)
    (Session.call_of_ok (congrArg (Fault.on _) hwritten))
  exact ⟨s', g, hs', he ▸ hs₄, hg, hg'⟩

end Publish

end BootMedia
