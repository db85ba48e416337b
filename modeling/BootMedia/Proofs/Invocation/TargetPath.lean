import BootMedia.Proofs.FileSystem.Way
import BootMedia.Proofs.Invocation.Hermetic
import BootMedia.Proofs.Publish
import BootMedia.Toolchain

namespace BootMedia

open FileSystem

variable {here : Path} {e : Environment}

theorem Layout.root_ofEnvironment_ne_empty (hhere : here.text ≠ "") (e : Environment) :
    (Layout.ofEnvironment e here).root.text ≠ "" := by
  rw [Layout.ofEnvironment]
  split
  · split
    · exact hhere
    · next root _ hne => simpa using hne
  · exact hhere

theorem Path.text_ne_empty_of_isAbsolute (h : here.isAbsolute) : here.text ≠ "" := by
  intro he
  simp [Path.isAbsolute, Path.startsAtRoot, he] at h

theorem get?_targetPath (t : Target) (flags : Flags) (l : Layout) (e : Environment) :
    ((buildInvocation t flags l).toCommand.childEnvironment e).get? targetPathVariable =
      some l.root.text := by
  rw [buildInvocation, Invocation.get?_childEnvironment_hermetic,
    Invocation.last?_hermeticChanges, if_pos rfl]
  rfl

/-- The child looks for its target files in its working directory exactly if the root is absolute,
up to names that lead nowhere. The binary is below its working directory in any case. -/
theorem targetPath_iff (e : Environment) (here : Path) (a : Architecture) (c : Configuration)
    (flags : Flags) (habs : here.isAbsolute) :
    let l := Layout.ofEnvironment e here
    let t : Target := ⟨a, c, l⟩
    let i := buildInvocation t flags l
    let workspace := here.seenFrom l.root
    ∃ value, i.directory = some l.root ∧
      (i.toCommand.childEnvironment e).get? targetPathVariable = some value ∧
      let searched := workspace.seenFrom ⟨value⟩
      (searched = workspace ↔ l.root.isAbsolute) ∧
      (∀ (fs : FileSystem) (d d' : Inode), fs.IsTree → fs.directory workspace = .ok d →
        fs.directory searched = .ok d' → (d' = d ↔ searched.way = workspace.way)) ∧
      (".." ∉ l.root.names →
        (searched.way = workspace.way ↔ l.root.isAbsolute ∨ ∀ n ∈ l.root.names, n = ".")) ∧
      here.seenFrom t.artifact =
        (workspace / "target").down [t.triple, c.outputSubdirectory, artifactName] := by
  intro l t i workspace
  have hhere : here.text ≠ "" := Path.text_ne_empty_of_isAbsolute habs
  have hroot : l.root.text ≠ "" := Layout.root_ofEnvironment_ne_empty hhere e
  have hworkspace : workspace.isAbsolute := Path.isAbsolute_seenFrom habs l.root
  have hne : workspace.text ≠ "" := Path.text_ne_empty_of_isAbsolute hworkspace
  have hsame : l.root.isAbsolute → workspace.seenFrom l.root = workspace := fun h ↦ by
    rw [Path.seenFrom_of_isAbsolute workspace h]
    exact (Path.seenFrom_of_isAbsolute here h).symm
  refine ⟨l.root.text, rfl, get?_targetPath t flags l e, ⟨?_, hsame⟩, ?_, ?_, ?_⟩
  · intro h
    by_contra hrel
    exact Path.seenFrom_ne_self hne (by simpa using hrel) hroot h
  · intro fs d d' ht hd hd'
    exact directory_eq_iff_way_eq ht (Path.isAbsolute_seenFrom hworkspace l.root) hworkspace hd' hd
  · intro hup
    cases hrel : l.root.isAbsolute with
    | true => simp [hsame hrel]
    | false =>
      have hway : (workspace.seenFrom l.root).way = l.root.names.foldl Path.follow workspace.way :=
        Path.way_seenFrom hne hrel
      simp only [Bool.false_eq_true, false_or]
      rw [← Path.foldl_follow_eq_self_iff hup workspace.way, ← hway]
  · have hnames : ∀ n ∈ artifactNames a c, Path.IsName n :=
      fun n hn ↦ (isEntryName_artifactNames a c n hn).1
    rw [artifact_eq, Path.seenFrom_down hhere hroot hnames]
    rfl

theorem targetPath_iff_dot :
    let e := Environment.ofList [("IRON_WORKSPACE", ".")]
    Path.isAbsolute ⟨"/"⟩ ∧ (Layout.ofEnvironment e ⟨"/"⟩).root = ⟨"."⟩ ∧
      FileSystem.empty.IsTree ∧ FileSystem.empty.directory ⟨"/."⟩ = .ok 0 ∧
      FileSystem.empty.directory ⟨"/./."⟩ = .ok 0 ∧ Path.way ⟨"/./."⟩ = Path.way ⟨"/."⟩ := by
  obtain ⟨value, -, hvalue, -, hdirs, -⟩ :=
    targetPath_iff (.ofList [("IRON_WORKSPACE", ".")]) ⟨"/"⟩ .x64 .release ⟨none, none⟩ rfl
  obtain rfl : "." = value := Option.some.inj ((get?_targetPath _ _ _ _).symm.trans hvalue)
  have hway := (hdirs FileSystem.empty 0 0 isTree_empty rfl rfl).1 rfl
  exact ⟨rfl, rfl, isTree_empty, rfl, rfl, hway⟩

def nestedWorkspace : FileSystem where
  nodes := #[.directory 0 [("work", 1)], .directory 0 [("ws", 2)], .directory 1 [("ws", 3)],
    .directory 2 []]
  here := 1
  clock := 0

theorem targetPath_nested :
    let e := Environment.ofList [("IRON_WORKSPACE", "ws")]
    let l := Layout.ofEnvironment e ⟨"/work"⟩
    let i := buildInvocation ⟨.x64, .release, l⟩ ⟨none, none⟩ l
    let inside : FileSystem := { nestedWorkspace with here := 2 }
    nestedWorkspace.directory (Path.seenFrom ⟨"/work"⟩ l.root) = .ok 2 ∧
      i.directory = some ⟨"ws"⟩ ∧ nestedWorkspace.directory ⟨"ws"⟩ = .ok inside.here ∧
      (i.toCommand.childEnvironment e).get? targetPathVariable = some "ws" ∧
      inside.directory ⟨"ws"⟩ = .ok 3 :=
  ⟨rfl, rfl, rfl, rfl, rfl⟩

end BootMedia
