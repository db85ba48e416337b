import BootMedia.Proofs.Delivery
import BootMedia.Proofs.Outputs
import BootMedia.Plan.Interleaving

namespace BootMedia

open FileSystem Function

variable {ι : Type} {fs fs' : FileSystem} {p : Path} {xs ns us : List String} {name : String}
  {c : FileCall} {f g : RegularFile} {o : Output} {i : ι}

structure Job where
  source : Path
  target : Target

namespace Job

def plan (j : Job) (l : Layout) : Plan Path := publish j.source j.target l

def bootFile (j : Job) : Output := .bootFile j.target.architecture

def HasSource (j : Job) (l : Layout) (fs : FileSystem) : Prop :=
  ∃ i f, fs.resolve j.source = .ok i ∧ fs.fileAt? i = some f ∧ f.isReadable ∧ f.isWritable ∧
    ∀ m ns, fs.resolve l.mediaDirectory = .ok m → fs.descend m ns ≠ some i

inductive Delivers (j : Job) (fs : FileSystem) : Output → ByteArray → Prop
  | script : Delivers j fs .script (startupScript j.target.bootFile).toUTF8
  | bootFile {f : RegularFile} : fs.file? j.source = some f → Delivers j fs j.bootFile f.bytes

end Job

/-- Jobs in a workspace. The paths of its boot media go on from `base`, which leads to the names
`way`, and have the names `lead` before their own. -/
structure Scene (ι : Type) where
  layout : Layout
  jobs : ι → Job
  before : FileSystem
  base : Path
  way : List String
  lead : List String
  publishable : Publishable layout before
  sources : ∀ i, (jobs i).HasSource layout before
  site : Site layout base lead
  shows : before.Shows base way (before.view rootInode)

def Node.bytes? : Node → Option ByteArray
  | .file f => some f.bytes
  | _ => none

namespace Scene

variable {S : Scene ι}

def spot (S : Scene ι) (o : Output) : List String := S.way ++ (S.lead ++ o.names)

def held (S : Scene ι) (fs : FileSystem) (o : Output) : Option ByteArray :=
  (fs.view rootInode (S.spot o)).bind Node.bytes?

def Writes (S : Scene ι) (o : Output) : Prop := o = .script ∨ ∃ i, o = (S.jobs i).bootFile

theorem spot_injective {o o' : Output} (h : S.spot o = S.spot o') : o = o' :=
  Output.names_injective (List.append_cancel_left (List.append_cancel_left h))

theorem not_above (hns : ns <+: S.lead ++ Layout.bootNames) : ¬S.lead ++ o.names <+: ns :=
  fun h ↦ o.names_not_above ((List.prefix_append_right_inj S.lead).1 (h.trans hns))

theorem ne_spot (hns : ns <+: S.lead ++ Layout.bootNames) : S.way ++ ns ≠ S.spot o := by
  intro he
  obtain rfl := List.append_cancel_left he
  exact not_above hns List.prefix_rfl

/-- Nothing has been done to the files but what the jobs are there for. -/
structure Intact (S : Scene ι) (fs : FileSystem) : Prop where
  shows : fs.Shows S.base S.way (fs.view rootInode)
  grows : S.before.Grows Set.univ fs
  folders : FoldersOrNothing (fs.view rootInode) S.way (S.lead ++ Layout.bootNames)
  output : ∀ o : Output, IsOutput (fs.view rootInode (S.spot o))
  frame : ∀ xs, fs.view rootInode xs ≠ S.before.view rootInode xs →
    (∃ ns, ns <+: S.lead ++ Layout.bootNames ∧ ns ≠ [] ∧ xs = S.way ++ ns ∧
      S.before.view rootInode xs = none ∧ fs.view rootInode xs = some .folder) ∨
    ∃ o, S.Writes o ∧ xs = S.spot o

structure Acts (S : Scene ι) (i : ι) (c : FileCall) (fs fs' : FileSystem) : Prop where
  intact : S.Intact fs'
  grows : fs.Grows Set.univ fs'
  written : ∀ o : Output, c.written? = some (o.path S.layout) →
    ∃ bytes, (S.jobs i).Delivers S.before o bytes ∧ S.held fs' o = some bytes
  kept : ∀ o : Output, c.written? ≠ some (o.path S.layout) → S.held fs' o = S.held fs o

theorem intact_before (S : Scene ι) : S.Intact S.before := by
  have hboot := S.publishable.folders S.layout.bootDirectory (.tail _ (.tail _ (.head _)))
  refine ⟨S.shows, .refl _ _, fun us hus _ ↦ ?_, fun o ↦ ?_, fun xs hxs ↦ absurd rfl hxs⟩
  · rcases hboot with habsent | hdir
    · exact S.shows.none_or_folder_of_isAbsent S.site.boot S.site.isEntryName_boot habsent hus
    · have hfolder := S.shows.view_eq_folder_of_isDirectory S.site.boot S.site.isEntryName_boot hdir
      exact .inr (S.shows.folder_above hfolder ((List.prefix_append_right_inj _).2 hus))
  · have hns := S.site.isEntryName_output o
    rcases S.publishable.outputs o with habsent | ⟨f, hf, hw⟩
    · rw [spot, S.shows.view_eq_none_of_isAbsent (S.site.output o) hns habsent]
      exact .vacant
    · rw [spot, (S.shows.file?_eq_some_iff (S.site.output o) hns).1 hf]
      exact .file hw

namespace Intact

theorem makeFolder (h : S.Intact fs) (hns : ns <+: S.lead ++ Layout.bootNames)
    (hs : fs'.Shows S.base S.way (withFolders (fs.view rootInode) S.way ns))
    (hg : fs.Grows Set.univ fs') :
    S.Intact fs' ∧ ∀ o, S.held fs' o = S.held fs o := by
  have hkept : ∀ o : Output, fs'.view rootInode (S.spot o) = fs.view rootInode (S.spot o) := by
    intro o
    rw [hs.view, spot, withFolders_of_not_above (not_above hns)]
  refine ⟨⟨hs.view.symm ▸ hs, h.grows.trans hg, fun ms hms hne ↦ ?_, fun o ↦ ?_, fun xs hxs ↦ ?_⟩,
    fun o ↦ ?_⟩
  · rw [hs.view]
    rcases withFolders_cases (fs.view rootInode) S.way ns (S.way ++ ms) with hsame | ⟨hfolder, -⟩
    · rw [hsame]
      exact h.folders ms hms hne
    · exact .inr hfolder
  · rw [hkept]
    exact h.output o
  · rw [hs.view] at hxs ⊢
    rcases withFolders_cases (fs.view rootInode) S.way ns xs with
      hsame | ⟨hfolder, ms, hms, hne, rfl⟩
    · rw [hsame] at hxs ⊢
      exact h.frame xs hxs
    · refine .inl ⟨ms, hms.trans hns, hne, rfl, ?_, hfolder⟩
      rw [hfolder] at hxs
      -- What is a directory now is one that had been missing from the start.
      rcases eq_or_ne (fs.view rootInode (S.way ++ ms)) (S.before.view rootInode (S.way ++ ms)) with
        hsame | hchanged
      · rw [← hsame] at hxs ⊢
        exact (h.folders ms (hms.trans hns) hne).resolve_right fun he ↦ hxs he.symm
      · rcases h.frame _ hchanged with ⟨_, -, -, -, hnone, -⟩ | ⟨o, -, ho⟩
        · exact hnone
        · exact absurd ho (ne_spot (hms.trans hns))
  · rw [held, held, hkept]

theorem writeOutput (h : S.Intact fs) (ho : S.Writes o)
    (hs : fs'.Shows S.base S.way (update (fs.view rootInode) (S.spot o) (some (.file g))))
    (hw : g.isWritable) (hg : fs.Grows Set.univ fs') :
    S.Intact fs' ∧ S.held fs' o = some g.bytes ∧ ∀ o', o' ≠ o → S.held fs' o' = S.held fs o' := by
  have hkept : ∀ o', o' ≠ o → fs'.view rootInode (S.spot o') = fs.view rootInode (S.spot o') := by
    intro o' hne
    rw [hs.view, update_of_ne fun he ↦ hne (spot_injective he)]
  have hself : fs'.view rootInode (S.spot o) = some (.file g) := by
    rw [hs.view, update_self]
  refine ⟨⟨hs.view.symm ▸ hs, h.grows.trans hg, fun ms hms hne ↦ ?_, fun o' ↦ ?_, fun xs hxs ↦ ?_⟩,
    ?_, fun o' hne ↦ ?_⟩
  · rw [hs.view, update_of_ne (ne_spot hms)]
    exact h.folders ms hms hne
  · by_cases ho' : o' = o
    · rw [ho', hself]
      exact .file hw
    · rw [hkept o' ho']
      exact h.output o'
  · by_cases hx : xs = S.spot o
    · exact .inr ⟨o, ho, hx⟩
    · rw [hs.view, update_of_ne hx] at hxs ⊢
      exact h.frame xs hxs
  · rw [held, hself]
    rfl
  · rw [held, held, hkept o' hne]

/-- A file in the place of an output is followed by another, if by anything. -/
theorem exists_output_file (h : S.Intact fs') (hx : fs.Extends fs')
    (hv : fs.view rootInode (S.spot o) = some (.file f)) :
    ∃ g, fs'.view rootInode (S.spot o) = some (.file g) := by
  obtain ⟨k, hk, -⟩ := view_eq_file.1 hv
  have ho := h.output o
  generalize hn : fs'.view rootInode (S.spot o) = n at ho
  cases ho with
  | vacant =>
    rw [h.shows.tree.view_eq_none, hx.descend hk] at hn
    cases hn
  | @file g _ => exact ⟨g, rfl⟩

theorem acts_same (h : S.Intact fs) (hc : c.written? = none) (i : ι) : S.Acts i c fs fs := by
  refine ⟨h, .refl _ _, fun o ho ↦ ?_, fun _ _ ↦ rfl⟩
  rw [hc] at ho
  cases ho

theorem ensureDirectory (h : S.Intact fs) (hp : p.IsBelow S.base (us ++ [name]))
    (hns : us ++ [name] <+: S.lead ++ Layout.bootNames)
    (hu : fs.view rootInode (S.way ++ us) = some .folder) (i : ι) :
    ∃ fs', (FileCall.ensureDirectory p).perform fs = .ok fs' ∧
      S.Acts i (.ensureDirectory p) fs fs' ∧
      fs'.view rootInode (S.way ++ (us ++ [name])) = some .folder := by
  have hentry : ∀ n ∈ us ++ [name], IsEntryName n :=
    fun n hn ↦ S.site.isEntryName_boot n (hns.subset hn)
  obtain ⟨fs', hf, hs⟩ := h.shows.ensureDirectory_withFolders hp hentry hu
    (h.folders _ hns (by simp))
  have hg := (ensureDirectory_eq_ok hf).mono (Set.empty_subset Set.univ)
  obtain ⟨hi, hkept⟩ := h.makeFolder hns hs hg
  refine ⟨fs', ?_, ⟨hi, hg, nofun, fun o _ ↦ hkept o⟩, ?_⟩
  · rw [FileCall.perform, hf]
    rfl
  · rw [hs.view]
    exact withFolders_of_above List.prefix_rfl (by simp)

end Intact

/-- The source of a job is where it was found, and can be copied. -/
structure Source (S : Scene ι) (i : ι) (k : Inode) (f : RegularFile) (xs : List String)
    (fs : FileSystem) : Prop where
  resolve : fs.resolve (S.jobs i).source = .ok k
  descend : fs.descend rootInode xs = some k
  view : fs.view rootInode xs = some (.file f)
  readable : f.isReadable
  writable : f.isWritable
  far : ∀ o, xs ≠ S.spot o

theorem exists_source (S : Scene ι) (i : ι) : ∃ k f xs, S.Source i k f xs S.before := by
  obtain ⟨k, f, hk, hf, hread, hwrite, hout⟩ := S.sources i
  have ht := S.publishable.tree
  have hb := S.publishable.begins (S.jobs i).source
  obtain ⟨-, hl⟩ := (resolve_eq_ok_iff ht hb).1 hk
  obtain ⟨xs, hxs⟩ := exists_descend_of_leads ht hb hl
  refine ⟨k, f, xs, hk, hxs, view_eq_file.2 ⟨k, hxs, fileAt?_eq_some.1 hf⟩, hread, hwrite, ?_⟩
  rintro o rfl
  obtain ⟨ns, hns⟩ := o.exists_names_eq_cons
  have hspot : S.spot o = S.way ++ (S.lead ++ [Layout.mediaName]) ++ ns := by
    rw [spot, hns]
    simp
  rw [hspot, descend_append] at hxs
  obtain ⟨m, hm, hk'⟩ := Option.bind_eq_some_iff.1 hxs
  have hmedia : ∀ n ∈ S.lead ++ [Layout.mediaName], IsEntryName n :=
    List.forall_mem_append.2 ⟨S.site.entry, by decide⟩
  exact hout m ns (S.shows.resolve_of_descend S.site.media hmedia hm) hk'

namespace Source

variable {k : Inode}

theorem of_intact (h : S.Source i k f xs S.before) (hi : S.Intact fs) : S.Source i k f xs fs := by
  have hsame : fs.view rootInode xs = S.before.view rootInode xs := by
    by_contra hne
    rcases hi.frame xs hne with ⟨_, -, -, -, hnone, -⟩ | ⟨o, -, ho⟩
    · rw [h.view] at hnone
      cases hnone
    · exact h.far o ho
  exact ⟨hi.grows.resolve h.resolve, hi.grows.descend h.descend, hsame.trans h.view, h.readable,
    h.writable, h.far⟩

theorem fileAt? (h : S.Source i k f xs fs) : fs.fileAt? k = some f := by
  obtain ⟨j, hj, hn⟩ := view_eq_file.1 h.view
  obtain rfl : j = k := Option.some.inj (hj.symm.trans h.descend)
  exact fileAt?_eq_some.2 hn

theorem file? (h : S.Source i k f xs fs) : fs.file? (S.jobs i).source = some f :=
  file?_eq_some.2 ⟨k, h.resolve, h.fileAt?⟩

end Source

namespace Intact

theorem file?_eq_some_iff (h : S.Intact fs) (o : Output) :
    fs.file? (o.path S.layout) = some f ↔ fs.view rootInode (S.spot o) = some (.file f) :=
  h.shows.file?_eq_some_iff (S.site.output o) (S.site.isEntryName_output o)

theorem read?_eq_held (h : S.Intact fs) (o : Output) :
    fs.read? (o.path S.layout) = S.held fs o := by
  have ho := h.output o
  rw [read?, held]
  generalize hv : fs.view rootInode (S.spot o) = n at ho
  cases ho with
  | vacant =>
    cases hf : fs.file? (o.path S.layout) with
    | none => rfl
    | some f =>
      rw [(h.file?_eq_some_iff o).1 hf] at hv
      cases hv
  | file _ =>
    rw [(h.file?_eq_some_iff o).2 hv]
    rfl

theorem requireFile (h : S.Intact fs) (i : ι) :
    (FileCall.requireFile (S.jobs i).source).perform fs = .ok fs := by
  obtain ⟨k, f, xs, hsource⟩ := S.exists_source i
  rw [FileCall.perform, isFile, (hsource.of_intact h).file?]
  rfl

theorem copy (h : S.Intact fs)
    (hboot : fs.view rootInode (S.way ++ (S.lead ++ Layout.bootNames)) = some .folder) (i : ι) :
    let c := FileCall.copy (S.jobs i).source (publishedFile (S.jobs i).target S.layout)
    ∃ fs' g, c.perform fs = .ok fs' ∧ S.Acts i c fs fs' ∧
      fs'.view rootInode (S.spot (S.jobs i).bootFile) = some (.file g) := by
  intro c
  obtain ⟨k, f, xs, hsource⟩ := S.exists_source i
  have hs := hsource.of_intact h
  obtain ⟨fs', time, hc, hs'⟩ := h.shows.copyFile (S.site.output (S.jobs i).bootFile)
    (S.site.isEntryName_output _) (List.append_assoc ..).symm hboot (h.output _)
    hs.resolve hs.descend hs.view hs.readable (hs.far _)
  obtain ⟨_, _, _, -, -, hgrows, -⟩ := copyFile_eq_ok hc
  have hg := hgrows.mono (Set.subset_univ _)
  obtain ⟨hi, hheld, hkept⟩ := h.writeOutput (.inr ⟨i, rfl⟩) hs' hs.writable hg
  refine ⟨fs', { f with modified := time }, ?_, ⟨hi, hg, fun o ho ↦ ?_, fun o ho ↦ ?_⟩, ?_⟩
  · rw [FileCall.perform]
    exact congrArg (Fault.on _) hc
  · obtain rfl : (S.jobs i).bootFile = o := S.site.path_injective (Option.some.inj ho)
    exact ⟨f.bytes, .bootFile hsource.file?, hheld⟩
  · apply hkept
    rintro rfl
    exact ho rfl
  · rw [hs'.view]
    exact update_self ..

theorem copyTime (h : S.Intact fs)
    (hv : fs.view rootInode (S.spot (S.jobs i).bootFile) = some (.file g)) :
    let c := FileCall.copyTime (S.jobs i).source (publishedFile (S.jobs i).target S.layout)
    ∃ fs', c.perform fs = .ok fs' ∧ S.Acts i c fs fs' := by
  intro c
  obtain ⟨k, f, xs, hsource⟩ := S.exists_source i
  have hs := hsource.of_intact h
  have hg : g.isWritable := by
    have ho := h.output (S.jobs i).bootFile
    rw [hv] at ho
    cases ho with
    | file hg => exact hg
  obtain ⟨fs', hc, hs'⟩ := h.shows.copyTime (S.site.output (S.jobs i).bootFile)
    (S.site.isEntryName_output _) hs.resolve hs.fileAt? hv hg
  obtain ⟨time, hset⟩ := FileCall.copyTime_eq_ok hc
  obtain ⟨_, _, -, -, hgrows, -⟩ := setModified_eq_ok hset
  have hg' := hgrows.mono (Set.subset_univ _)
  obtain ⟨hi, hheld, hkept⟩ := h.writeOutput (.inr ⟨i, rfl⟩) hs' hg hg'
  refine ⟨fs', hc, hi, hg', nofun, fun o _ ↦ ?_⟩
  by_cases ho : o = (S.jobs i).bootFile
  · rw [ho, hheld, held, hv]
    rfl
  · exact hkept o ho

theorem write (h : S.Intact fs)
    (hboot : fs.view rootInode (S.way ++ (S.lead ++ Layout.bootNames)) = some .folder) (i : ι) :
    let c := FileCall.write S.layout.startupScript (startupScript (S.jobs i).target.bootFile)
    ∃ fs', c.perform fs = .ok fs' ∧ S.Acts i c fs fs' := by
  intro c
  have hmedia : fs.view rootInode (S.way ++ (S.lead ++ [Layout.mediaName])) = some .folder := by
    apply h.shows.folder_above hboot
    exact (List.prefix_append_right_inj _).2 ((List.prefix_append_right_inj _).2 ⟨_, rfl⟩)
  have hsplit : S.lead ++ Layout.scriptNames =
      S.lead ++ [Layout.mediaName] ++ [Layout.scriptName] := by
    simp [Layout.scriptNames]
  obtain ⟨fs', g, hw, hs', hbytes, hg⟩ := h.shows.writeFile (S.site.output .script)
    (S.site.isEntryName_output _) hsplit hmedia (h.output .script)
    (startupScript (S.jobs i).target.bootFile).toUTF8
  obtain ⟨_, -, hgrows, -⟩ := writeFile_eq_ok hw
  have hg' := hgrows.mono (Set.subset_univ _)
  obtain ⟨hi, hheld, hkept⟩ := h.writeOutput (.inl rfl) hs' hg hg'
  refine ⟨fs', ?_, hi, hg', fun o ho ↦ ?_, fun o ho ↦ ?_⟩
  · rw [FileCall.perform]
    exact congrArg (Fault.on _) hw
  · obtain rfl : .script = o := S.site.path_injective (Option.some.inj ho)
    exact ⟨_, .script, hbytes ▸ hheld⟩
  · apply hkept
    rintro rfl
    exact ho rfl

end Intact

end Scene

end BootMedia
