import BootMedia.Proofs.FileSystem.Effect

namespace BootMedia.FileSystem

open Function

variable {fs fs' : FileSystem} {root p : Path} {ns us w ws : List String}
  {v v' : List String → Option Node} {i d q : Inode} {es : List (String × Inode)} {name : String}
  {n : Node} {f g : RegularFile}

/-- Nothing, or a regular file that may be written. -/
inductive IsOutput : Option Node → Prop
  | vacant : IsOutput none
  | file {f : RegularFile} : f.isWritable → IsOutput (some (.file f))

def IsAbsent (fs : FileSystem) (p : Path) : Prop := fs.resolve p = .error .notFound

theorem IsAbsent.refusal? (h : fs.IsAbsent p) (hne : p.text ≠ "") : p.refusal? = none := by
  cases hp : p.refusal? with
  | none => rfl
  | some e =>
    rw [IsAbsent, resolve_of_refusal hp] at h
    cases h
    rcases Path.refusal?_eq_some hp with he | he | ⟨-, he⟩
    · cases he
    · cases he
    · exact absurd he hne

/-- The directory of a path is the one to which the names `w` lead. -/
def HasNames (fs : FileSystem) (p : Path) (w : List String) : Prop :=
  ∃ r, fs.directory p = .ok r ∧ fs.descend rootInode w = some r

/-- The file system is a tree, in which the names of `root` lead to the directory that the names
`w` lead to, and what is seen of it is `v`. -/
structure Shows (fs : FileSystem) (root : Path) (w : List String) (v : List String → Option Node) :
    Prop where
  tree : fs.IsTree
  begins : fs.Begins root
  root : ∃ r, fs.Leads (origin root fs.here) root.names r ∧ fs.isDirectoryAt r ∧
    fs.descend rootInode w = some r
  view : fs.view rootInode = v

namespace Shows

theorem mono (h : fs.Shows root w v) (ht : fs'.IsTree) (hx : fs.Extends fs')
    (hv : fs'.view rootInode = v') : fs'.Shows root w v' := by
  obtain ⟨r, hr, hd, hw⟩ := h.root
  refine ⟨ht, h.begins.mono hx, ⟨r, ?_, isDirectoryAt_mono hx hd, hx.descend hw⟩, hv⟩
  rw [hx.here]
  exact hr.mono hx

theorem of_hasNames (ht : fs.IsTree) (hb : fs.Begins root) (h : fs.HasNames root w) :
    fs.Shows root w (fs.view rootInode) := by
  obtain ⟨r, hr, hw⟩ := h
  obtain ⟨-, hl, hd⟩ := (directory_eq_ok_iff ht hb).1 hr
  exact ⟨ht, hb, ⟨r, hl.names, hd, hw⟩, rfl⟩

theorem names_unique (h : fs.Shows root w v) (hw : fs.HasNames root ws) : ws = w := by
  obtain ⟨r, hr, -, hr'⟩ := h.root
  obtain ⟨i, hi, hi'⟩ := hw
  obtain ⟨-, hl, -⟩ := (directory_eq_ok_iff h.tree h.begins).1 hi
  obtain ⟨u, hu⟩ := h.begins
  obtain rfl := hr.unique hl.names h.tree hu
  exact h.tree.unique hi' hr'

theorem isDirectory_root (h : fs.Shows root w v) (hroot : root.refusal? = none) :
    fs.isDirectory root := by
  obtain ⟨r, hr, hd, -⟩ := h.root
  refine isDirectory_iff.2 ⟨r, (directory_eq_ok_iff h.tree h.begins).2 ⟨hroot, ?_, hd⟩⟩
  rw [Path.steps]
  split
  · obtain ⟨q, es, hn⟩ := isDirectoryAt_iff.1 hd
    exact hr.append (.stay hn (.inr rfl) (.done r))
  · exact hr

theorem hasNames (h : fs.Shows root w v) (hd : fs.isDirectory root) : fs.HasNames root w := by
  obtain ⟨i, hi⟩ := isDirectory_iff.1 hd
  obtain ⟨-, hl, -⟩ := (directory_eq_ok_iff h.tree h.begins).1 hi
  obtain ⟨r, hr, -, hw⟩ := h.root
  obtain ⟨u, hu⟩ := h.begins
  obtain rfl := hr.unique hl.names h.tree hu
  exact ⟨r, hi, hw⟩

theorem view_append (h : fs.Shows root w v) {r : Inode} (hr : fs.descend rootInode w = some r)
    (ns : List String) : fs.view r ns = v (w ++ ns) := by
  rw [← h.view, FileSystem.view_append hr]

theorem exists_file (h : fs.Shows root w v) (hv : v ws = some (.file f)) :
    ∃ i, fs.descend rootInode ws = some i ∧ fs.node? i = some (.file f) := by
  rw [← h.view] at hv
  exact view_eq_file.1 hv

theorem node?_eq_file (h : fs.Shows root w v) (hi : fs.descend rootInode ws = some i)
    (hv : v ws = some (.file f)) : fs.node? i = some (.file f) := by
  obtain ⟨j, hj, hn⟩ := h.exists_file hv
  rwa [Option.some.inj (hi.symm.trans hj)]

theorem exists_folder (h : fs.Shows root w v) (hv : v ws = some .folder) :
    ∃ d q es, fs.descend rootInode ws = some d ∧ fs.node? d = some (.directory q es) := by
  rw [← h.view] at hv
  exact view_eq_folder.1 hv

theorem lookup_eq_none (h : fs.Shows root w v) (hd : fs.descend rootInode ws = some d)
    (hn : fs.node? d = some (.directory q es)) (hv : v (ws ++ [name]) = none) :
    es.lookup name = none := by
  rw [← h.view, h.tree.view_eq_none, descend_append_singleton, hd] at hv
  exact (child?_of_directory hn).symm.trans hv

theorem addNode (h : fs.Shows root w v) (hd : fs.descend rootInode ws = some d)
    (hn : fs.node? d = some (.directory q es)) (hl : es.lookup name = none) (hnew : n.IsNew d) :
    (fs.addNode d name n).Shows root w (update v (ws ++ [name]) (some n.surface)) := by
  refine h.mono (h.tree.addNode hn hl hnew) (extends_addNode hn name n) ?_
  rw [view_addNode h.tree hd hn hl hnew, h.view]

theorem updateFile (h : fs.Shows root w v) (hi : fs.descend rootInode ws = some i)
    (hv : v ws = some (.file f)) (change : RegularFile → RegularFile) :
    (fs.updateFile i change).Shows root w (update v ws (some (.file (change f)))) ∧
      fs.Extends (fs.updateFile i change) := by
  have hn := h.node?_eq_file hi hv
  rw [FileSystem.updateFile, fileAt?_eq_some.2 hn]
  refine ⟨h.mono (h.tree.setNode_file hn) (extends_setNode_file hn) ?_, extends_setNode_file hn⟩
  rw [view_setNode_file h.tree hi hn, h.view]

end Shows

theorem extends_tick (fs : FileSystem) : fs.Extends fs.tick := ⟨rfl, fun h ↦ ⟨_, h, id⟩⟩

theorem descend_tick (fs : FileSystem) (i : Inode) (ns : List String) :
    fs.tick.descend i ns = fs.descend i ns := by
  apply descend_congr
  exact fun _ _ ↦ rfl

theorem IsTree.tick (h : fs.IsTree) : fs.tick.IsTree := by
  have hd := descend_tick fs rootInode
  refine ⟨h.root, fun {ns i} hi ↦ h.node ((hd ns).symm.trans hi),
    fun {ns i name j p es} hi hj hp ↦ h.parent ((hd ns).symm.trans hi) hj hp,
    fun {ms ns i} hm hn ↦ h.unique ((hd ms).symm.trans hm) ((hd ns).symm.trans hn)⟩

theorem Shows.tick (h : fs.Shows root w v) : fs.tick.Shows root w v := by
  refine h.mono h.tree.tick (extends_tick fs) ?_
  rw [← h.view]
  funext ns
  rw [FileSystem.view, descend_tick]
  rfl

namespace Shows

theorem append (h : fs.Shows root w v) (hi : fs.descend rootInode ws = some i)
    (hv : v ws = some (.file f)) (bytes : ByteArray) :
    ∃ fs' time, fs.append i bytes = .ok fs' ∧
      fs'.Shows root w
        (update v ws (some (.file { f with bytes := f.bytes ++ bytes, modified := time }))) := by
  have hfull : fs.isFullAt i = false := by rw [isFullAt, h.node?_eq_file hi hv]
  obtain ⟨hs, -⟩ := h.updateFile hi hv
    fun f ↦ { f with bytes := f.bytes ++ bytes, modified := fs.clock }
  refine ⟨_, fs.clock, ?_, hs.tick⟩
  rw [FileSystem.append, hfull]
  rfl

variable (h : fs.Shows root w v) (hp : p.IsBelow root ns) (hns : ∀ n ∈ ns, IsEntryName n)
include h hp hns

theorem locateSteps_of_descend (hi : fs.descend rootInode (w ++ ns) = some i) (purpose : Purpose) :
    fs.locateSteps purpose p p.names = .ok (.node i) := by
  obtain ⟨r, hr, -, hw⟩ := h.root
  rw [descend_append, hw] at hi
  exact FileSystem.locateSteps_of_descend h.tree h.begins hr hp hns purpose hi

theorem resolve_of_descend (hi : fs.descend rootInode (w ++ ns) = some i) :
    fs.resolve p = .ok i := by
  obtain ⟨r, hr, -, hw⟩ := h.root
  rw [descend_append, hw] at hi
  exact FileSystem.resolve_of_descend h.tree h.begins hr hp hns hi

theorem locateSteps_of_none {ms : List String} (hsplit : ns = us ++ name :: ms)
    (hu : v (w ++ us) = some .folder) (hv : v (w ++ us ++ [name]) = none) (purpose : Purpose) :
    ∃ d q es, fs.descend rootInode (w ++ us) = some d ∧ fs.node? d = some (.directory q es) ∧
      es.lookup name = none ∧ fs.locateSteps purpose p p.names =
        if ms = [] then .ok (.vacant d name) else .error .notFound := by
  obtain ⟨r, hr, -, hw⟩ := h.root
  obtain ⟨d, q, es, hd, hn⟩ := h.exists_folder hu
  have hl := h.lookup_eq_none hd hn hv
  have hd' := hd
  rw [descend_append, hw] at hd'
  exact ⟨d, q, es, hd, hn, hl,
    locateSteps_of_lookup_none h.tree h.begins hr hp hns purpose hsplit hd' hn hl⟩

theorem file?_eq_some_iff : fs.file? p = some f ↔ v (w ++ ns) = some (.file f) := by
  obtain ⟨r, hr, -, hw⟩ := h.root
  rw [FileSystem.file?_eq_some_iff h.tree h.begins hr hp hns, h.view_append hw]

theorem view_eq_none_of_isAbsent (ha : fs.IsAbsent p) : v (w ++ ns) = none := by
  rw [← h.view, h.tree.view_eq_none]
  cases hi : fs.descend rootInode (w ++ ns) with
  | none => rfl
  | some i =>
    rw [IsAbsent, h.resolve_of_descend hp hns hi] at ha
    cases ha

/-- Above a path at which there is nothing, there is a directory or nothing. -/
theorem none_or_folder_of_isAbsent (ha : fs.IsAbsent p) (hu : us <+: ns) :
    v (w ++ us) = none ∨ v (w ++ us) = some .folder := by
  obtain ⟨ms, rfl⟩ := hu
  cases ms with
  | nil =>
    have hnone := h.view_eq_none_of_isAbsent hp hns ha
    rw [List.append_nil] at hnone
    exact .inl hnone
  | cons name ms =>
    cases hi : fs.descend rootInode (w ++ us) with
    | none =>
      rw [← h.view]
      exact .inl (h.tree.view_eq_none.2 hi)
    | some i =>
      cases hd : fs.isDirectoryAt i with
      | true =>
        obtain ⟨q, es, hn⟩ := isDirectoryAt_iff.1 hd
        rw [← h.view]
        exact .inr (view_eq_folder.2 ⟨i, q, es, hi, hn⟩)
      | false =>
        obtain ⟨r, hr, -, hw⟩ := h.root
        rw [descend_append, hw] at hi
        rw [IsAbsent, resolve, locate, hp.steps,
          locateSteps_of_no_directory h.tree h.begins hr hp hns .content rfl hi hd] at ha
        cases ha

theorem view_eq_folder_of_isDirectory (hd : fs.isDirectory p) : v (w ++ ns) = some .folder := by
  obtain ⟨i, hi⟩ := isDirectory_iff.1 hd
  obtain ⟨hi, hdir⟩ := directory_eq_ok.1 hi
  obtain ⟨q, es, hn⟩ := isDirectoryAt_iff.1 hdir
  obtain ⟨r, hr, -, hw⟩ := h.root
  rw [← h.view_append hw, view_eq_folder]
  exact ⟨i, q, es, descend_of_resolve h.tree h.begins hr hp hns hi, hn⟩

theorem ensureDirectory_of_folder (hv : v (w ++ ns) = some .folder) :
    fs.ensureDirectory p = .ok fs := by
  obtain ⟨r, hr, -, hw⟩ := h.root
  obtain ⟨d, q, es, hd, hn⟩ := h.exists_folder hv
  have hdir : fs.isDirectory p := by
    apply isDirectory_of_view h.tree h.begins hr hp hns
    rwa [h.view_append hw]
  rw [ensureDirectory, makeDirectory, locateName, h.locateSteps_of_descend hp hns hd]
  exact if_pos hdir

theorem ensureDirectory_of_vacant (hsplit : ns = us ++ [name]) (hu : v (w ++ us) = some .folder)
    (hv : v (w ++ ns) = none) :
    ∃ fs', fs.ensureDirectory p = .ok fs' ∧
      fs'.Shows root w (update v (w ++ ns) (some .folder)) := by
  subst hsplit
  rw [← List.append_assoc] at hv ⊢
  obtain ⟨d, q, es, hd, hn, hl, hlocate⟩ := h.locateSteps_of_none hp hns rfl hu hv .name
  refine ⟨fs.addNode d name (.directory d []), ?_, h.addNode hd hn hl .directory⟩
  rw [ensureDirectory, makeDirectory, locateName, hlocate]
  rfl

theorem ensureDirectory_of_missing {m : String} {ms : List String}
    (hsplit : ns = us ++ name :: m :: ms) (hu : v (w ++ us) = some .folder)
    (hv : v (w ++ us ++ [name]) = none) : fs.ensureDirectory p = .error .notFound := by
  have hlocate : ∀ purpose, fs.locateSteps purpose p p.names = .error .notFound := by
    intro purpose
    obtain ⟨d, q, es, -, -, -, hl⟩ := h.locateSteps_of_none hp hns hsplit hu hv purpose
    exact hl
  have hdir : fs.isDirectory p = false := by
    rw [isDirectory, resolve, locate, hp.steps, hlocate]
    rfl
  rw [ensureDirectory, makeDirectory, locateName, hlocate]
  simp [hdir]

theorem setModified (hv : v (w ++ ns) = some (.file f)) (hf : f.isWritable) (time : Int) :
    ∃ fs', fs.setModified p time = .ok fs' ∧
      fs'.Shows root w (update v (w ++ ns) (some (.file { f with modified := time }))) := by
  obtain ⟨i, hi, hn⟩ := h.exists_file hv
  refine ⟨_, ?_, (h.updateFile hi hv ({ · with modified := time })).1⟩
  simp only [FileSystem.setModified, h.resolve_of_descend hp hns hi, bind, Except.bind, hn, hf,
    if_true]

section Output

variable (hsplit : ns = us ++ [name]) (hu : v (w ++ us) = some .folder)
  (hv : IsOutput (v (w ++ ns)))
include hsplit hu hv

theorem openOutput (mode : Nat) :
    ∃ i fs' g, fs.openOutput p mode = .ok (i, fs') ∧ fs.Extends fs' ∧
      fs'.descend rootInode (w ++ ns) = some i ∧
      fs'.Shows root w (update v (w ++ ns) (some (.file g))) ∧
      (g.mode = mode ∨ g.isWritable) := by
  generalize ho : v (w ++ ns) = o at hv
  cases hv with
  | vacant =>
    subst hsplit
    rw [← List.append_assoc] at ho ⊢
    obtain ⟨d, q, es, hd, hn, hl, hlocate⟩ := h.locateSteps_of_none hp hns rfl hu ho .output
    let g : RegularFile := ⟨.empty, mode, fs.clock⟩
    have hx := (extends_addNode hn name (.file g)).trans (extends_tick _)
    refine ⟨fs.nodes.size, _, g, ?_, hx, ?_, (h.addNode hd hn hl (.file g)).tick, .inl rfl⟩
    · rw [FileSystem.openOutput, locateOutput, hp.steps, hlocate]
      rfl
    · rw [descend_tick, descend_addNode_self hn hl (.file g) hd]
  | @file f hf =>
    obtain ⟨i, hi, hn⟩ := h.exists_file ho
    have hsame : update v (w ++ ns) (some (.file f)) = v := by rw [← ho, update_eq_self]
    refine ⟨i, fs, f, ?_, .refl fs, hi, by rwa [hsame], .inr hf⟩
    rw [FileSystem.openOutput, locateOutput, hp.steps, h.locateSteps_of_descend hp hns hi]
    simp only [hn]
    exact if_pos hf

theorem openEmpty (mode : Nat) :
    ∃ i fs' g, fs.openEmpty p mode = .ok (i, fs') ∧ fs.Extends fs' ∧
      fs'.descend rootInode (w ++ ns) = some i ∧
      fs'.Shows root w (update v (w ++ ns) (some (.file g))) ∧
      g.bytes = .empty ∧ (g.mode = mode ∨ g.isWritable) := by
  obtain ⟨i, fs', g, ho, hx, hi, hs, hg⟩ := h.openOutput hp hns hsplit hu hv mode
  obtain ⟨hs', hx'⟩ := hs.updateFile hi (update_self ..)
    ({ · with bytes := .empty, modified := fs'.clock })
  rw [update_idem] at hs'
  refine ⟨i, _, _, ?_, (hx.trans hx').trans (extends_tick _), ?_, hs'.tick, rfl, hg⟩
  · rw [FileSystem.openEmpty, ho]
    rfl
  · rw [descend_tick, hx'.descend hi]

theorem writeFile (bytes : ByteArray) :
    ∃ fs' g, fs.writeFile p bytes = .ok fs' ∧
      fs'.Shows root w (update v (w ++ ns) (some (.file g))) ∧ g.bytes = bytes ∧ g.isWritable := by
  obtain ⟨i, fs', g, ho, -, hi, hs, hb, hg⟩ :=
    h.openEmpty hp hns hsplit hu hv (masked creationMask defaultMode)
  obtain ⟨fs'', time, ha, hs'⟩ := hs.append hi (update_self ..) bytes
  rw [update_idem] at hs'
  refine ⟨fs'', _, ?_, hs', ?_, ?_⟩
  · rw [FileSystem.writeFile, ho]
    exact ha
  · change g.bytes ++ bytes = bytes
    rw [hb, ByteArray.empty_append]
  · rcases hg with hg | hg
    · change (g.mode &&& 0o200 != 0) = true
      rw [hg]
      rfl
    · exact hg

theorem copyFile {source : Path} {j : Inode} (hsource : fs.resolve source = .ok j)
    (hj : fs.descend rootInode ws = some j) (hf : v ws = some (.file f)) (hread : f.isReadable)
    (hne : ws ≠ w ++ ns) :
    ∃ fs' time, fs.copyFile source p = .ok fs' ∧
      fs'.Shows root w (update v (w ++ ns) (some (.file { f with modified := time }))) := by
  have hin : fs.openInput source = .ok (j, f) := by
    rw [openInput, bind_of_ok hsource, h.node?_eq_file hj hf]
    exact if_pos hread
  obtain ⟨i, fs₁, g, ho, hx₁, hi, hs₁, hb, -⟩ :=
    h.openEmpty hp hns hsplit hu hv (masked creationMask f.mode)
  obtain ⟨hs₂, hx₂⟩ := hs₁.updateFile hi (update_self ..) ({ · with mode := f.mode })
  rw [update_idem] at hs₂
  obtain ⟨fs₃, time, ha, hs₃⟩ := hs₂.append (hx₂.descend hi) (update_self ..) f.bytes
  rw [update_idem] at hs₃
  have hsame : (fs₁.updateFile i ({ · with mode := f.mode })).fileAt? j = some f := by
    rw [fileAt?_eq_some]
    apply hs₂.node?_eq_file (hx₂.descend (hx₁.descend hj))
    rw [update_of_ne hne, hf]
  refine ⟨fs₃, time, ?_, ?_⟩
  · simp only [FileSystem.copyFile, hin, ho, bind, Except.bind, hsame]
    exact ha
  · simpa [hb, ByteArray.empty_append] using hs₃

end Output

theorem copyTime {source : Path} {j : Inode} (hsource : fs.resolve source = .ok j)
    (hf : fs.fileAt? j = some f) (hv : v (w ++ ns) = some (.file g)) (hg : g.isWritable) :
    ∃ fs', (FileCall.copyTime source p).perform fs = .ok fs' ∧
      fs'.Shows root w (update v (w ++ ns) (some (.file { g with modified := f.modified }))) := by
  obtain ⟨fs', hset, hs⟩ := h.setModified hp hns hv hg f.modified
  have hfile : fs.file? source = some f := file?_eq_some.2 ⟨j, hsource, hf⟩
  refine ⟨fs', ?_, hs⟩
  rw [FileCall.perform, hfile]
  exact congrArg (Fault.on p) hset

/-- A copy that also gets the time of its source is the same regular file. -/
theorem perform_copy_copyTime {source : Path} {j : Inode} (hsplit : ns = us ++ [name])
    (hu : v (w ++ us) = some .folder) (hv : IsOutput (v (w ++ ns)))
    (hsource : fs.resolve source = .ok j) (hj : fs.descend rootInode ws = some j)
    (hf : v ws = some (.file f)) (hread : f.isReadable) (hwrite : f.isWritable)
    (hne : ws ≠ w ++ ns) :
    ∃ fs₁ fs₂, (FileCall.copy source p).perform fs = .ok fs₁ ∧
      (FileCall.copyTime source p).perform fs₁ = .ok fs₂ ∧
      fs₂.Shows root w (update v (w ++ ns) (some (.file f))) := by
  obtain ⟨fs₁, time, hc, hs₁⟩ := h.copyFile hp hns hsplit hu hv hsource hj hf hread hne
  obtain ⟨_, _, _, -, -, hgrows, -⟩ := copyFile_eq_ok hc
  have hf₁ : fs₁.fileAt? j = some f := by
    rw [fileAt?_eq_some]
    apply hs₁.node?_eq_file (hgrows.descend hj)
    rw [update_of_ne hne, hf]
  obtain ⟨fs₂, ht, hs₂⟩ := hs₁.copyTime hp hns (hgrows.resolve hsource) hf₁ (update_self ..) hwrite
  rw [update_idem] at hs₂
  refine ⟨fs₁, fs₂, ?_, ht, hs₂⟩
  rw [FileCall.perform, hc]
  rfl

end Shows

end BootMedia.FileSystem
