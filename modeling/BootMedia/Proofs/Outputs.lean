import BootMedia.Proofs.Publish

namespace BootMedia

open FileSystem Function

variable {l : Layout} {fs fs' : FileSystem} {base p : Path} {us w ns : List String}

inductive Output where
  | script
  | bootFile (a : Architecture)
deriving DecidableEq

namespace Output

def names : Output → List String
  | script => Layout.scriptNames
  | bootFile a => a.publishedNames

def path (l : Layout) (o : Output) : Path := l.root.down o.names

theorem isEntryName_names (o : Output) : ∀ n ∈ o.names, IsEntryName n := by
  cases o with
  | script => exact isEntryName_scriptNames
  | bootFile a => exact isEntryName_publishedNames a

theorem names_injective {o o' : Output} (h : o.names = o'.names) : o = o' := by
  cases o with
  | script =>
    cases o' with
    | script => rfl
    | bootFile a => exact absurd h.symm (publishedNames_ne_scriptNames a)
  | bootFile a =>
    cases o' with
    | script => exact absurd h (publishedNames_ne_scriptNames a)
    | bootFile b => rw [publishedNames_injective h]

theorem names_not_above (o : Output) : ¬o.names <+: Layout.bootNames := by
  cases o with
  | script => decide
  | bootFile a => exact not_prefix_append_singleton _ _

theorem exists_names_eq_cons (o : Output) : ∃ ns, o.names = Layout.mediaName :: ns := by
  cases o <;> exact ⟨_, rfl⟩

theorem exists_names_eq (o : Output) : ∃ ns name, o.names = ns ++ [name] ∧
    ns <+: Layout.bootNames ∧ ns ≠ [] := by
  cases o with
  | script => exact ⟨[Layout.mediaName], Layout.scriptName, rfl, ⟨_, rfl⟩, by simp⟩
  | bootFile a => exact ⟨Layout.bootNames, a.bootFile, rfl, List.prefix_rfl, by decide⟩

end Output

/-- A tree in which each directory of the boot media is absent or a directory, and each file of them
absent or a file that may be written. Of the root there need not be anything; but from where there
is nothing on it has no step up, which would lead elsewhere once the directory has been made. -/
structure Publishable (l : Layout) (fs : FileSystem) : Prop where
  tree : fs.IsTree
  here : ∃ ns, fs.descend rootInode ns = some fs.here
  root : ∃ ms us i, l.root.names = ms ++ us ∧ fs.Leads (origin l.root fs.here) ms i ∧
    fs.isDirectoryAt i ∧ ∀ n ∈ us, n = "." ∨ IsEntryName n
  folders : ∀ p ∈ [l.mediaDirectory, l.mediaDirectory / "EFI", l.bootDirectory],
    fs.IsAbsent p ∨ fs.isDirectory p
  outputs : ∀ o : Output,
    fs.IsAbsent (o.path l) ∨ ∃ f, fs.file? (o.path l) = some f ∧ f.isWritable

/-- All paths of the boot media go on from `base`, first by the names `us`. -/
structure Site (l : Layout) (base : Path) (us : List String) : Prop where
  entry : ∀ n ∈ us, IsEntryName n
  media : l.mediaDirectory.IsBelow base (us ++ [Layout.mediaName])
  boot : l.bootDirectory.IsBelow base (us ++ Layout.bootNames)
  output : ∀ o : Output, (o.path l).IsBelow base (us ++ o.names)

namespace Publishable

theorem begins (h : Publishable l fs) (p : Path) : fs.Begins p := by
  cases hp : p.isAbsolute with
  | true => exact begins_of_isAbsolute hp
  | false =>
    rw [Begins, origin, hp]
    exact h.here

theorem refusal?_folder (h : Publishable l fs)
    (hp : p ∈ [l.mediaDirectory, l.mediaDirectory / "EFI", l.bootDirectory]) (hne : p.text ≠ "") :
    p.refusal? = none := by
  rcases h.folders p hp with habsent | hd
  · exact habsent.refusal? hne
  · obtain ⟨i, hi⟩ := isDirectory_iff.1 hd
    exact refusal?_of_resolve (directory_eq_ok.1 hi).1

theorem refusal?_output (h : Publishable l fs) (o : Output) (hne : (o.path l).text ≠ "") :
    (o.path l).refusal? = none := by
  rcases h.outputs o with habsent | ⟨f, hf, -⟩
  · exact habsent.refusal? hne
  · obtain ⟨i, hi, -⟩ := file?_eq_some.1 hf
    exact refusal?_of_resolve hi

theorem exists_site (h : Publishable l fs) :
    ∃ base us w, Site l base us ∧ fs.Shows base w (fs.view rootInode) := by
  obtain ⟨ms, us, i, hnames, hl, hdir, hus⟩ := h.root
  obtain ⟨w, hw⟩ := exists_descend_of_leads h.tree (h.begins l.root) hl
  -- Dots in the missing part lead nowhere else, and without them it can be made.
  have hplain : ∀ n ∈ Path.plain us, IsEntryName n := by
    intro n hn
    obtain ⟨hmem, hdot⟩ := List.mem_filter.1 hn
    exact (hus n hmem).resolve_left (by simpa using hdot)
  have hbelow : ∀ ns, (∀ n ∈ ns, IsEntryName n) → ns ≠ [] →
      ((l.root.down ns).text ≠ "" → (l.root.down ns).refusal? = none) →
      (l.root.down ns).IsBelow (l.root.withNames ms) (Path.plain us ++ ns) := by
    intro ns hns hne haccepted
    have hnames' : ∀ n ∈ ns, Path.IsName n := fun n hn ↦ (hns n hn).1
    have htext := Path.down_ne_empty l.root hnames' hne
    exact (Path.isBelow_down hnames' (dot_not_mem hns) hne (haccepted htext)).of_beginning hnames
  obtain ⟨hbase, habsolute⟩ := Path.withNames_beginning hnames
  refine ⟨l.root.withNames ms, Path.plain us, w, ⟨hplain, ?_, ?_, fun o ↦ ?_⟩, h.tree, h.begins _,
    ⟨i, ?_⟩, rfl⟩
  · exact hbelow [Layout.mediaName] (by decide) (by simp) (h.refusal?_folder (.head _))
  · exact hbelow Layout.bootNames isEntryName_bootNames (by decide)
      (h.refusal?_folder (.tail _ (.tail _ (.head _))))
  · obtain ⟨ns, name, hns, -⟩ := o.exists_names_eq
    exact hbelow o.names o.isEntryName_names (by simp [hns]) (h.refusal?_output o)
  · rw [hbase, origin, habsolute]
    exact ⟨hl, hdir, hw⟩

end Publishable

namespace Site

variable (h : Site l base us)
include h

theorem isEntryName_boot : ∀ n ∈ us ++ Layout.bootNames, IsEntryName n :=
  List.forall_mem_append.2 ⟨h.entry, isEntryName_bootNames⟩

theorem isEntryName_output (o : Output) : ∀ n ∈ us ++ o.names, IsEntryName n :=
  List.forall_mem_append.2 ⟨h.entry, o.isEntryName_names⟩

theorem path_injective {o o' : Output} (hp : o.path l = o'.path l) : o = o' := by
  have hnames := (h.output o).names.symm.trans (hp ▸ (h.output o').names)
  exact Output.names_injective (List.append_cancel_left (List.append_cancel_left hnames))

end Site

end BootMedia
