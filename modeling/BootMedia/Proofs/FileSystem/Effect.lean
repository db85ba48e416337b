import BootMedia.FileSystem.Call
import BootMedia.Proofs.FileSystem.Links

namespace BootMedia

theorem Node.IsNew.ne_link {d : Inode} {n : Node} (h : n.IsNew d) (target : Path) :
    n ≠ .link target := by
  cases h <;> simp

namespace FileSystem

variable {fs fs' : FileSystem} {p source dest : Path} {i j d q : Inode} {es : List (String × Inode)}
  {name : String} {n : Node} {f g : RegularFile} {mode : Nat} {bytes : ByteArray} {J : Set Inode}

theorem bind_eq_ok {ε α β : Type} {x : Except ε α} {k : α → Except ε β} {b : β}
    (h : (x >>= k) = .ok b) : ∃ a, x = .ok a ∧ k a = .ok b := by
  cases x with
  | error e => cases h
  | ok a => exact ⟨a, rfl, h⟩

theorem bind_of_ok {ε α β : Type} {x : Except ε α} {a : α} (h : x = .ok a) (k : α → Except ε β) :
    (x >>= k) = k a := by
  rw [h]
  rfl

theorem grows_tick (fs : FileSystem) (J : Set Inode) : fs.Grows J fs.tick :=
  ⟨⟨rfl, fun h ↦ ⟨_, h, id⟩⟩, .rfl, fun _ ↦ .rfl⟩

theorem grows_setNode_file (h : fs.node? i = some (.file f)) (g : RegularFile) :
    fs.Grows {i} (fs.setNode i (.file g)) := by
  refine ⟨extends_setNode_file h, fun {j target} ↦ ?_, fun {j f} hj ↦ ?_⟩
  · rw [node?_setNode h]
    split
    · next hj => simp [hj, h]
    · rfl
  · rw [node?_setNode h, if_neg (by simpa using hj)]

theorem updateFile_of_file (h : fs.node? i = some (.file f))
    (change : RegularFile → RegularFile) :
    fs.updateFile i change = fs.setNode i (.file (change f)) := by
  rw [updateFile, fileAt?_eq_some.2 h]

theorem updateFile_of_no_file (h : fs.fileAt? i = none) (change : RegularFile → RegularFile) :
    fs.updateFile i change = fs := by
  rw [updateFile, h]

theorem fileAt?_updateFile (fs : FileSystem) (i : Inode) (change : RegularFile → RegularFile) :
    (fs.updateFile i change).fileAt? i = (fs.fileAt? i).map change := by
  cases h : fs.fileAt? i with
  | none => rw [updateFile_of_no_file h, h, Option.map_none]
  | some f =>
    have hn := fileAt?_eq_some.1 h
    rw [updateFile_of_file hn, Option.map_some, fileAt?_eq_some, node?_setNode hn, if_pos rfl]

theorem grows_updateFile (fs : FileSystem) (i : Inode) (change : RegularFile → RegularFile) :
    fs.Grows {i} (fs.updateFile i change) := by
  cases h : fs.fileAt? i with
  | none =>
    rw [updateFile_of_no_file h]
    exact .refl fs {i}
  | some f =>
    have hn := fileAt?_eq_some.1 h
    rw [updateFile_of_file hn]
    exact grows_setNode_file hn _

theorem grows_addNode (hd : fs.node? d = some (.directory q es)) (name : String) (hn : n.IsNew d)
    (hfile : ∀ f, n = .file f → fs.nodes.size ∈ J) : fs.Grows J (fs.addNode d name n) := by
  refine ⟨extends_addNode hd name n, fun {i target} ↦ ?_, fun {i f} hi ↦ ?_⟩
  · rw [node?_addNode hd]
    split
    · next hsize => simp [hsize, hn.ne_link target]
    split
    · next hid => simp [hid, hd]
    · rfl
  · rw [node?_addNode hd]
    split
    · next hsize =>
      have hne : n ≠ .file f := fun h ↦ hi (hsize ▸ hfile f h)
      simp [hsize, hne]
    split
    · next hid => simp [hid, hd]
    · rfl

theorem isAt_addNode (hd : fs.node? d = some (.directory q es)) (hnone : es.lookup name = none)
    (hn : n.IsNew d) : (fs.addNode d name n).IsAt fs.nodes.size (.vacant d name) := by
  constructor
  · have hchild := child?_addNode hd hnone hn d name
    rwa [if_pos ⟨rfl, rfl⟩] at hchild
  · intro target
    have hnode := node?_addNode hd name n fs.nodes.size
    rw [if_pos rfl] at hnode
    simp [hnode, hn.ne_link target]

theorem openInput_eq_ok (h : fs.openInput p = .ok (i, f)) :
    fs.resolve p = .ok i ∧
      (fs.fileAt? i = some f ∧ f.isReadable ∨ fs.fileAt? i = none ∧ f.bytes = .empty) := by
  obtain ⟨j, hj, h⟩ := bind_eq_ok h
  split at h
  · next g hg =>
    split at h
    · next hread =>
      cases h
      exact ⟨hj, .inl ⟨fileAt?_eq_some.2 hg, hread⟩⟩
    · cases h
  · next device hg =>
    cases h
    exact ⟨hj, .inr ⟨by rw [fileAt?, hg], rfl⟩⟩
  · cases h

theorem openOutput_eq_ok (h : fs.openOutput p mode = .ok (i, fs')) :
    fs'.resolve p = .ok i ∧ fs.Grows {i} fs' := by
  have hpurpose : Purpose.output ≠ .name := by decide
  rw [openOutput, locateOutput] at h
  split at h
  · next j hj =>
    have hi : j = i ∧ fs = fs' := by
      split at h
      · split at h
        · cases h
          exact ⟨rfl, rfl⟩
        · cases h
      · cases h
        exact ⟨rfl, rfl⟩
      · cases h
    obtain ⟨rfl, rfl⟩ := hi
    have hgrows := Grows.refl fs {j}
    exact ⟨hgrows.resolve_of_locate hpurpose hj rfl, hgrows⟩
  · next d name hplace =>
    cases h
    obtain ⟨-, hreaches⟩ := locateSteps_eq_ok_iff.1 hplace
    obtain ⟨q, es, hd, hnone⟩ := hreaches.directory_of_vacant rfl
    let new : RegularFile := ⟨.empty, mode, fs.clock⟩
    have hadd : fs.Grows {fs.nodes.size} (fs.addNode d name (.file new)) :=
      grows_addNode hd name (.file new) fun _ _ ↦ rfl
    have hgrows := hadd.trans (grows_tick _ _)
    have hat : (fs.addNode d name (.file new)).IsAt fs.nodes.size (.vacant d name) :=
      isAt_addNode hd hnone (.file new)
    exact ⟨hgrows.resolve_of_locate hpurpose hplace hat, hgrows⟩
  · cases h

theorem openEmpty_eq_ok (h : fs.openEmpty p mode = .ok (i, fs')) :
    fs'.resolve p = .ok i ∧ fs.Grows {i} fs' ∧
      ∀ {g}, fs'.fileAt? i = some g → g.bytes = .empty := by
  obtain ⟨⟨j, fs₁⟩, ho, h⟩ := bind_eq_ok h
  obtain ⟨rfl, rfl⟩ := Prod.mk.inj (Except.ok.inj h)
  obtain ⟨hj, hgrows⟩ := openOutput_eq_ok ho
  let clear : RegularFile → RegularFile := ({ · with bytes := .empty, modified := fs₁.clock })
  have hempty : fs₁.Grows {j} (fs₁.updateFile j clear).tick :=
    (grows_updateFile fs₁ j clear).trans (grows_tick _ _)
  refine ⟨hempty.resolve hj, hgrows.trans hempty, fun hg ↦ ?_⟩
  have hfile := (fileAt?_updateFile fs₁ j clear).symm.trans hg
  obtain ⟨f, -, rfl⟩ := Option.map_eq_some_iff.1 hfile
  rfl

theorem append_eq_ok (h : fs.append i bytes = .ok fs') :
    fs.Grows {i} fs' ∧
      fs'.fileAt? i = (fs.fileAt? i).map
        fun f ↦ { f with bytes := f.bytes ++ bytes, modified := fs.clock } := by
  rw [append] at h
  split at h
  · cases h
  · cases h
    exact ⟨(grows_updateFile _ _ _).trans (grows_tick _ _), fileAt?_updateFile fs i _⟩

theorem writeFile_eq_ok (h : fs.writeFile p bytes = .ok fs') :
    ∃ k, fs'.resolve p = .ok k ∧ fs.Grows {k} fs' ∧
      ∀ {g}, fs'.fileAt? k = some g → g.bytes = bytes := by
  obtain ⟨⟨k, fs₁⟩, ho, ha⟩ := bind_eq_ok h
  obtain ⟨hk, hgrows, hempty⟩ := openEmpty_eq_ok ho
  obtain ⟨hgrows', hfile⟩ := append_eq_ok ha
  refine ⟨k, hgrows'.resolve hk, hgrows.trans hgrows', fun hg ↦ ?_⟩
  obtain ⟨f, hf, rfl⟩ := Option.map_eq_some_iff.1 (hfile.symm.trans hg)
  change f.bytes ++ bytes = bytes
  rw [hempty hf, ByteArray.empty_append]

/-- A copy holds what its source held, unless both are one file: that one is emptied before it is
read. -/
theorem copyFile_eq_ok (h : fs.copyFile source dest = .ok fs') :
    ∃ i f j, fs.openInput source = .ok (i, f) ∧ fs'.resolve dest = .ok j ∧ fs.Grows {j} fs' ∧
      ∀ {g}, fs'.fileAt? j = some g →
        g.bytes = (if i = j then .empty else f.bytes) ∧ g.mode = f.mode := by
  obtain ⟨⟨i, f⟩, hin, h⟩ := bind_eq_ok h
  obtain ⟨⟨j, fs₁⟩, ho, ha⟩ := bind_eq_ok h
  obtain ⟨-, hf⟩ := openInput_eq_ok hin
  obtain ⟨hj, hgrows, hempty⟩ := openEmpty_eq_ok ho
  obtain ⟨hgrows', hfile⟩ := append_eq_ok ha
  let setMode : RegularFile → RegularFile := ({ · with mode := f.mode })
  have hmode := grows_updateFile fs₁ j setMode
  have hmodeFile := fileAt?_updateFile fs₁ j setMode
  refine ⟨i, f, j, hin, hgrows'.resolve (hmode.resolve hj), (hgrows.trans hmode).trans hgrows',
    fun hg ↦ ?_⟩
  obtain ⟨g₂, hg₂, rfl⟩ := Option.map_eq_some_iff.1 (hfile.symm.trans hg)
  obtain ⟨g₁, hg₁, rfl⟩ := Option.map_eq_some_iff.1 (hmodeFile.symm.trans hg₂)
  refine ⟨?_, rfl⟩
  change g₁.bytes ++ ((fs₁.updateFile j setMode).fileAt? i).elim .empty (·.bytes) = _
  rw [hempty hg₁, ByteArray.empty_append]
  by_cases hij : i = j
  · subst hij
    have hbytes : g₁.bytes = .empty := hempty hg₁
    rw [if_pos rfl, hmodeFile, hg₁]
    exact hbytes
  · rw [if_neg hij, (hgrows.trans hmode).fileAt? hij]
    rcases hf with ⟨hf, -⟩ | ⟨hf, hbytes⟩
    · rw [hf]
      rfl
    · rw [hf, hbytes]
      rfl

theorem setModified_eq_ok {time : Int} (h : fs.setModified p time = .ok fs') :
    ∃ j f, fs.resolve p = .ok j ∧ fs.fileAt? j = some f ∧ fs.Grows {j} fs' ∧
      fs'.fileAt? j = some { f with modified := time } := by
  obtain ⟨j, hj, h⟩ := bind_eq_ok h
  split at h
  · next f hn =>
    split at h
    · cases h
      have hf := fileAt?_eq_some.2 hn
      refine ⟨j, f, hj, hf, grows_updateFile _ _ _, ?_⟩
      rw [fileAt?_updateFile, hf]
      rfl
    · cases h
  · cases h
  · cases h

theorem ensureDirectory_eq_ok (h : fs.ensureDirectory p = .ok fs') : fs.Grows ∅ fs' := by
  rw [ensureDirectory, makeDirectory] at h
  cases hplace : fs.locateName p with
  | error e =>
    rw [hplace] at h
    dsimp only at h
    split at h
    · cases h
      exact .refl fs ∅
    · cases h
  | ok place =>
    rw [hplace] at h
    cases place with
    | node i =>
      dsimp only at h
      split at h
      · cases h
        exact .refl fs ∅
      · cases h
    | vacant d name =>
      cases h
      obtain ⟨-, hreaches⟩ := locateSteps_eq_ok_iff.1 hplace
      obtain ⟨q, es, hd, -⟩ := hreaches.directory_of_vacant rfl
      exact grows_addNode hd name .directory nofun

end FileSystem

end BootMedia
