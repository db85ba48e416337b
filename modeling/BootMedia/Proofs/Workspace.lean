import BootMedia.Proofs.Publish

namespace BootMedia

open FileSystem Function

variable {runner : Runner} {fs fs' fs'' : FileSystem} {l : Layout} {w ns us : List String}
  {v : List String → Option Node} {a b : Architecture} {c : Configuration} {f g : RegularFile}

def FileSystem.seen (fs : FileSystem) (p : Path) (ns : List String) : Option Node :=
  (fs.directory p).toOption.bind (fs.view · ns)

theorem FileSystem.Shows.seen {root : Path} (h : fs.Shows root w v) (hd : fs.isDirectory root)
    (ns : List String) : fs.seen root ns = v (w ++ ns) := by
  obtain ⟨r, hr, hw⟩ := h.hasNames hd
  rw [FileSystem.seen, hr]
  exact h.view_append hw ns

/-- A workspace in a tree, in which nothing but directories and writable files stands where
publishing needs them, and every binary that is there can be copied. -/
structure Workspace (l : Layout) (fs : FileSystem) : Prop where
  tree : fs.IsTree
  begins : fs.Begins l.root
  root : fs.isDirectory l.root
  folders : ∀ ns, ns <+: Layout.bootNames → ns ≠ [] →
    fs.seen l.root ns = none ∨ fs.seen l.root ns = some .folder
  script : IsOutput (fs.seen l.root Layout.scriptNames)
  bootFile : ∀ a : Architecture, IsOutput (fs.seen l.root a.publishedNames)
  binary : ∀ a c f, fs.file? (Target.mk a c l).artifact = some f → f.isReadable ∧ f.isWritable

theorem Workspace.shows (h : Workspace l fs) : ∃ w, fs.Shows l.root w (fs.view rootInode) := by
  obtain ⟨r, hr⟩ := isDirectory_iff.1 h.root
  obtain ⟨-, hl, -⟩ := (directory_eq_ok_iff h.tree h.begins).1 hr
  obtain ⟨w, hw⟩ := exists_descend_of_leads h.tree h.begins hl
  exact ⟨w, .of_hasNames h.tree h.begins ⟨r, hr, hw⟩⟩

theorem Workspace.refusal?_root (h : Workspace l fs) : l.root.refusal? = none := by
  obtain ⟨r, hr⟩ := isDirectory_iff.1 h.root
  exact refusal?_of_resolve (directory_eq_ok.1 hr).1

theorem Workspace.of_media (h : Workspace l fs) (ht : fs'.IsTree) (hbegins : fs'.Begins l.root)
    (hr : fs'.isDirectory l.root)
    (hm : ∀ ns, fs'.seen l.root (Layout.mediaName :: ns) = fs.seen l.root (Layout.mediaName :: ns))
    (hb : ∀ a c f, fs'.file? (Target.mk a c l).artifact = some f → f.isReadable ∧ f.isWritable) :
    Workspace l fs' := by
  refine ⟨ht, hbegins, hr, fun ns hns hne ↦ ?_, ?_, fun a ↦ ?_, hb⟩
  · obtain ⟨n, ns, rfl⟩ := List.exists_cons_of_ne_nil hne
    obtain rfl : n = Layout.mediaName := (List.cons_prefix_cons.1 hns).1
    rw [hm]
    exact h.folders _ hns hne
  · rw [Layout.scriptNames, hm]
    exact h.script
  · rw [Architecture.publishedNames, Layout.bootNames, List.cons_append, hm]
    exact h.bootFile a

structure Publication where
  architecture : Architecture
  content : RegularFile

def latest (log : List Publication) (a : Architecture) : Option RegularFile :=
  ((log.filter (·.architecture = a)).getLast?).map (·.content)

theorem latest_append (log log' : List Publication) (a : Architecture) :
    latest (log ++ log') a = (latest log' a).or (latest log a) := by
  rw [latest, latest, latest, List.filter_append, List.getLast?_append, Option.map_or]

theorem latest_singleton (p : Publication) (a : Architecture) :
    latest [p] a = if p.architecture = a then some p.content else none := by
  by_cases h : p.architecture = a <;> simp [latest, h]

def Touched (log : List Publication) (ns : List String) : Prop :=
  ∃ p ∈ log, ns <+: Layout.bootNames ∨ ns = Layout.scriptNames ∨ ns = p.architecture.publishedNames

/-- Publications, and whatever happens outside of the boot media, lead from `fs` to `fs'`. -/
structure Replays (l : Layout) (fs : FileSystem) (log : List Publication) (fs' : FileSystem) :
    Prop where
  workspace : Workspace l fs'
  short : log ≠ [] → (l.root.down Layout.scriptNames).IsBelow l.root Layout.scriptNames ∧
    ∀ a : Architecture, (l.root.down a.publishedNames).IsBelow l.root a.publishedNames
  script : ∀ p ∈ log.getLast?, ∃ g, fs'.seen l.root Layout.scriptNames = some (.file g) ∧
    g.bytes = (startupScript p.architecture.bootFile).toUTF8
  bootFile : ∀ a, ∀ f ∈ latest log a, fs'.seen l.root a.publishedNames = some (.file f)
  frame : ∀ ns, ¬Touched log (Layout.mediaName :: ns) →
    fs'.seen l.root (Layout.mediaName :: ns) = fs.seen l.root (Layout.mediaName :: ns)

theorem latest_eq_none {log : List Publication} :
    latest log a = none ↔ ∀ p ∈ log, p.architecture ≠ a := by
  rw [latest, Option.map_eq_none_iff, List.getLast?_eq_none_iff, List.filter_eq_nil_iff]
  simp

theorem touched_scriptNames {log : List Publication} (h : Touched log Layout.scriptNames) :
    log ≠ [] := by
  obtain ⟨p, hp, -⟩ := h
  exact List.ne_nil_of_mem hp

theorem touched_publishedNames {log : List Publication} (h : Touched log a.publishedNames) :
    latest log a ≠ none := by
  obtain ⟨p, hp, hn | hn | hn⟩ := h
  · exact absurd hn (not_prefix_append_singleton _ _)
  · exact absurd hn (publishedNames_ne_scriptNames a)
  · exact fun h ↦ latest_eq_none.1 h p hp (publishedNames_injective hn).symm

namespace Replays

variable {log log' : List Publication}

theorem nil (h : Workspace l fs')
    (hm : ∀ ns, fs'.seen l.root (Layout.mediaName :: ns) =
      fs.seen l.root (Layout.mediaName :: ns)) :
    Replays l fs [] fs' := by
  refine ⟨h, fun h ↦ absurd rfl h, nofun, nofun, fun ns _ ↦ hm ns⟩

theorem append (h : Replays l fs log fs') (h' : Replays l fs' log' fs'') :
    Replays l fs (log ++ log') fs'' := by
  refine ⟨h'.workspace, fun hne ↦ ?_, fun p hp ↦ ?_, fun a f hf ↦ ?_, fun ns hns ↦ ?_⟩
  · rcases log with _ | ⟨p, log⟩
    · exact h'.short hne
    · exact h.short (List.cons_ne_nil _ _)
  · rw [List.getLast?_append] at hp
    cases hl : log'.getLast? with
    | some q =>
      rw [hl] at hp
      cases hp
      exact h'.script p hl
    | none =>
      rw [hl] at hp
      have hnot : ¬Touched log' Layout.scriptNames :=
        fun ht ↦ touched_scriptNames ht (List.getLast?_eq_none_iff.1 hl)
      obtain ⟨g, hg, hb⟩ := h.script p hp
      exact ⟨g, (h'.frame _ hnot).trans hg, hb⟩
  · rw [latest_append] at hf
    cases hl : latest log' a with
    | some g =>
      rw [hl] at hf
      cases hf
      exact h'.bootFile a f hl
    | none =>
      rw [hl] at hf
      have hnot : ¬Touched log' a.publishedNames := fun ht ↦ touched_publishedNames ht hl
      exact (h'.frame _ hnot).trans (h.bootFile a f hf)
  · have hnot : ¬Touched log' (Layout.mediaName :: ns) :=
      fun ⟨p, hp, hn⟩ ↦ hns ⟨p, List.mem_append_right _ hp, hn⟩
    have hnot' : ¬Touched log (Layout.mediaName :: ns) :=
      fun ⟨p, hp, hn⟩ ↦ hns ⟨p, List.mem_append_left _ hp, hn⟩
    exact (h'.frame ns hnot).trans (h.frame ns hnot')

theorem read?_startupScript (h : Replays l fs log fs') {p : Publication} (hp : p ∈ log.getLast?) :
    fs'.read? l.startupScript = some (startupScript p.architecture.bootFile).toUTF8 := by
  have hne : log ≠ [] := by
    rintro rfl
    cases hp
  obtain ⟨w, hs⟩ := h.workspace.shows
  obtain ⟨g, hg, hb⟩ := h.script p hp
  rw [hs.seen h.workspace.root] at hg
  have hfile := (hs.file?_eq_some_iff (h.short hne).1 isEntryName_scriptNames).2 hg
  rw [read?, show l.startupScript = l.root.down Layout.scriptNames from rfl, hfile, ← hb]
  rfl

theorem file?_bootFile (h : Replays l fs log fs') (hf : f ∈ latest log a) :
    fs'.file? (l.bootDirectory / a.bootFile) = some f := by
  have hne : log ≠ [] := by
    rintro rfl
    cases hf
  obtain ⟨w, hs⟩ := h.workspace.shows
  have hb := h.bootFile a f hf
  rw [hs.seen h.workspace.root] at hb
  exact (hs.file?_eq_some_iff ((h.short hne).2 a) (isEntryName_publishedNames a)).2 hb

end Replays

section Published

variable (h : Workspace l fs) (hs : fs.Shows l.root w (fs.view rootInode))
  (hs' : fs'.Shows l.root w (published (fs.view rootInode) w a f g))
include h hs hs'

theorem Workspace.of_published (hf : f.isWritable) (hg : g.isWritable) : Workspace l fs' := by
  have hroot := hs'.isDirectory_root h.refusal?_root
  refine ⟨hs'.tree, hs'.begins, hroot, fun ns hns hne ↦ ?_, ?_, fun b ↦ ?_, fun b d k hk ↦ ?_⟩
  · have hscript : ns ≠ Layout.scriptNames := by
      rintro rfl
      exact absurd hns (by decide)
    have hboot : ns ≠ a.publishedNames := by
      rintro rfl
      exact not_prefix_append_singleton _ _ hns
    rw [hs'.seen hroot, published_of_ne hscript hboot, withFolders_of_above hns hne]
    exact .inr rfl
  · rw [hs'.seen hroot, published_script]
    exact .file hg
  · rw [hs'.seen hroot]
    by_cases hb : b = a
    · subst hb
      rw [published_bootFile]
      exact .file hf
    · rw [published_of_ne (publishedNames_ne_scriptNames b)
        (fun he ↦ hb (publishedNames_injective he)), Architecture.publishedNames,
        withFolders_of_not_above (not_prefix_append_singleton _ _), ← Architecture.publishedNames,
        ← hs.seen h.root]
      exact h.bootFile b
  · -- The binaries are outside of the boot media.
    rw [artifact_eq] at hk
    obtain ⟨hbelow, hk⟩ := file?_artifact hs' hk
    have hout : ¬w ++ [Layout.mediaName] <+: w ++ artifactNames b d := fun hm ↦ by
      have hm := (List.prefix_append_right_inj w).1 hm
      exact absurd (List.cons_prefix_cons.1 hm).1 (by decide)
    rw [published_outside hout] at hk
    exact h.binary b d k ((hs.file?_eq_some_iff hbelow (isEntryName_artifactNames b d)).2 hk)

theorem replays_published (hf : f.isWritable) (hg : g.isWritable)
    (hbytes : g.bytes = (startupScript a.bootFile).toUTF8)
    (hshort : (l.root.down Layout.scriptNames).IsBelow l.root Layout.scriptNames ∧
      ∀ b : Architecture, (l.root.down b.publishedNames).IsBelow l.root b.publishedNames) :
    Replays l fs [⟨a, f⟩] fs' := by
  have hroot := hs'.isDirectory_root h.refusal?_root
  refine ⟨h.of_published hs hs' hf hg, fun _ ↦ hshort, fun p hp ↦ ?_, fun b k hk ↦ ?_,
    fun ns hns ↦ ?_⟩
  · obtain rfl : ⟨a, f⟩ = p := by simpa using hp
    rw [hs'.seen hroot, published_script]
    exact ⟨g, rfl, hbytes⟩
  · rw [latest_singleton] at hk
    split at hk
    · next hb =>
      obtain rfl : a = b := hb
      obtain rfl : f = k := by simpa using hk
      rw [hs'.seen hroot, published_bootFile]
    · cases hk
  · have habove : ¬Layout.mediaName :: ns <+: Layout.bootNames :=
      fun hu ↦ hns ⟨_, List.mem_singleton_self _, .inl hu⟩
    have hscript : Layout.mediaName :: ns ≠ Layout.scriptNames :=
      fun hu ↦ hns ⟨_, List.mem_singleton_self _, .inr (.inl hu)⟩
    have hboot : Layout.mediaName :: ns ≠ a.publishedNames :=
      fun hu ↦ hns ⟨_, List.mem_singleton_self _, .inr (.inr hu)⟩
    rw [hs'.seen hroot, hs.seen h.root, published_of_ne hscript hboot,
      withFolders_of_not_above habove]

end Published

/-- A publication leaves a workspace, and nothing outside of its boot media is changed. -/
theorem Workspace.perform_publish {s : Session} (h : Workspace l s.files)
    (hf : s.files.file? (Target.mk a c l).artifact = some f) (runner : Runner) :
    ∃ s', (publish (Target.mk a c l).artifact ⟨a, c, l⟩ l).perform runner s =
        (.ok (publishedFile ⟨a, c, l⟩ l), s') ∧
      Replays l s.files [⟨a, f⟩] s'.files ∧
      ∀ w, s.files.HasNames l.root w → ∀ ns, ¬w ++ [Layout.mediaName] <+: ns →
        s'.files.view rootInode ns = s.files.view rootInode ns := by
  obtain ⟨w, hs⟩ := h.shows
  have htext : l.root.text ≠ "" := (Path.refusal?_eq_none.1 h.refusal?_root).2.1
  have hdirs : FoldersOrNothing (s.files.view rootInode) w Layout.bootNames := by
    intro ns hns hne
    rw [← hs.seen h.root]
    exact h.folders ns hns hne
  have hboot : IsOutput (s.files.view rootInode (w ++ a.publishedNames)) := by
    rw [← hs.seen h.root]
    exact h.bootFile a
  have hscript : IsOutput (s.files.view rootInode (w ++ Layout.scriptNames)) := by
    rw [← hs.seen h.root]
    exact h.script
  obtain ⟨hread, hwrite⟩ := h.binary a c f hf
  obtain ⟨s', g, hp, hs', hbytes, hg⟩ :=
    BootMedia.perform_publish hs htext hf hread hwrite hdirs hboot hscript runner
  obtain ⟨-, hshort⟩ := isBelow_media hs htext hf
  refine ⟨s', hp, replays_published h hs hs' hwrite hg hbytes hshort, fun w' hw' ns hns ↦ ?_⟩
  obtain rfl : w' = w := hs.names_unique hw'
  rw [hs'.view, published_outside hns]

end BootMedia
