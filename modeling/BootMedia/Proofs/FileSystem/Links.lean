import BootMedia.Proofs.FileSystem.Walk
import Mathlib.Data.Set.Insert

namespace BootMedia.FileSystem

variable {fs fs' fs'' : FileSystem} {purpose : Purpose} {n : Nat} {i j : Inode} {name : String}
  {names rest : List String} {place : Place} {p : Path} {entry : Option Inode} {J K : Set Inode}
  {through : Inode → List String → Except SystemError Place}

structure Finds (fs : FileSystem) (i : Inode) (name : String) (entry : Option Inode) : Prop where
  directory : ∃ q es, fs.node? i = some (.directory q es) ∧ es.lookup name = entry
  not_here : ¬(name = "." ∨ name = "")
  not_above : name ≠ ".."
  size : name.utf8ByteSize ≤ nameLimit

/-- The names lead from `i` to a place, through at most `n` links. -/
inductive Reaches (fs : FileSystem) (purpose : Purpose) : Nat → Inode → List String → Place → Prop
  | done {n : Nat} (i : Inode) : Reaches fs purpose n i [] (.node i)
  | stay {n : Nat} {i q : Inode} {es : List (String × Inode)} {name : String} {rest : List String}
      {place : Place} : fs.node? i = some (.directory q es) → name = "." ∨ name = "" →
      Reaches fs purpose n i rest place → Reaches fs purpose n i (name :: rest) place
  | up {n : Nat} {i q : Inode} {es : List (String × Inode)} {rest : List String} {place : Place} :
      fs.node? i = some (.directory q es) → Reaches fs purpose n q rest place →
      Reaches fs purpose n i (".." :: rest) place
  | vacant {n : Nat} {i : Inode} {name : String} :
      fs.Finds i name none → Reaches fs purpose n i [name] (.vacant i name)
  | down {n : Nat} {i j : Inode} {name : String} {rest : List String} {place : Place} :
      fs.Finds i name (some j) → (∀ target, fs.node? j ≠ some (.link target)) →
      ¬(purpose = .output ∧ rest = [""]) → Reaches fs purpose n j rest place →
      Reaches fs purpose n i (name :: rest) place
  | link {n : Nat} {i j : Inode} {name : String} {rest : List String} {target : Path}
      {place : Place} : fs.Finds i name (some j) → fs.node? j = some (.link target) →
      ¬(purpose = .output ∧ rest = [""]) → ¬(rest = [] ∧ purpose = .name) →
      Reaches fs purpose n (origin target i) (target.steps ++ rest) place →
      Reaches fs purpose (n + 1) i (name :: rest) place
  | name {n : Nat} {i j : Inode} {name : String} {target : Path} : fs.Finds i name (some j) →
      fs.node? j = some (.link target) → purpose = .name → Reaches fs purpose n i [name] (.node j)

theorem reaches_of_walkWith
    (hthrough : ∀ {i names place}, through i names = .ok place →
      ∃ m, n = m + 1 ∧ fs.Reaches purpose m i names place)
    (h : fs.walkWith purpose through i names = .ok place) :
    fs.Reaches purpose n i names place := by
  -- One constructor for each answer that the next step of the walk can give.
  induction names generalizing i with
  | nil =>
    cases h
    exact .done i
  | cons name rest ih =>
    rw [walkWith] at h
    split at h
    · next q es hd =>
      split at h
      · next hdot => exact .stay hd hdot (ih h)
      split at h
      · next hup =>
        subst hup
        exact .up hd (ih h)
      split at h
      · cases h
      split at h
      · cases h
      next hdot hup hslash hsize =>
      have hfinds : fs.Finds i name (es.lookup name) :=
        ⟨⟨q, es, hd, rfl⟩, hdot, hup, Nat.not_lt.1 hsize⟩
      split at h
      · next hnone =>
        rw [hnone] at hfinds
        split at h
        · next hrest =>
          cases h
          obtain rfl := List.isEmpty_iff.1 hrest
          exact .vacant hfinds
        · cases h
      · next j hj =>
        rw [hj] at hfinds
        split at h
        · next target hlink =>
          split at h
          · next hname =>
            cases h
            simp only [Bool.and_eq_true, List.isEmpty_iff, decide_eq_true_eq] at hname
            obtain ⟨rfl, hpurpose⟩ := hname
            exact .name hfinds hlink hpurpose
          · next hname =>
            simp only [Bool.and_eq_true, List.isEmpty_iff, decide_eq_true_eq] at hname
            obtain ⟨m, rfl, hm⟩ := hthrough h
            exact .link hfinds hlink hslash hname hm
        · next hlink => exact .down hfinds hlink hslash (ih h)
    · cases h

theorem reaches_of_walk (h : fs.walk purpose n i names = .ok place) :
    fs.Reaches purpose n i names place := by
  induction n generalizing i names place with
  | zero =>
    refine reaches_of_walkWith (fun hthrough ↦ ?_) h
    cases hthrough
  | succ n ih => exact reaches_of_walkWith (fun h ↦ ⟨n, rfl, ih h⟩) h

theorem exists_walk_eq_walkWith (fs : FileSystem) (purpose : Purpose) (n : Nat) :
    ∃ through, fs.walk purpose n = fs.walkWith purpose through := by
  cases n <;> exact ⟨_, rfl⟩

theorem Reaches.walk (h : fs.Reaches purpose n i names place) :
    fs.walk purpose n i names = .ok place := by
  -- Only a link uses up one of the links allowed, so in the other cases `n` stays as it is.
  induction h with
  | @done n i =>
    obtain ⟨through, hw⟩ := exists_walk_eq_walkWith fs purpose n
    rw [hw]
    rfl
  | @stay n i q es name rest place hd hdot h ih =>
    obtain ⟨through, hw⟩ := exists_walk_eq_walkWith fs purpose n
    rw [hw] at ih ⊢
    rw [walkWith, hd]
    exact (if_pos hdot).trans ih
  | @up n i q es rest place hd h ih =>
    obtain ⟨through, hw⟩ := exists_walk_eq_walkWith fs purpose n
    rw [hw] at ih ⊢
    rw [walkWith, hd]
    exact ih
  | @vacant n i name hf =>
    obtain ⟨through, hw⟩ := exists_walk_eq_walkWith fs purpose n
    obtain ⟨⟨q, es, hd, hnone⟩, hdot, hup, hsize⟩ := hf
    rw [hw, walkWith, hd]
    simp [hdot, hup, Nat.not_lt.2 hsize, hnone]
  | @down n i j name rest place hf hlink hslash h ih =>
    obtain ⟨through, hw⟩ := exists_walk_eq_walkWith fs purpose n
    obtain ⟨⟨q, es, hd, hj⟩, hdot, hup, hsize⟩ := hf
    rw [hw] at ih ⊢
    rw [walkWith, hd]
    simp only [hdot, hup, Nat.not_lt.2 hsize, hslash, hj, if_false]
    exact ih
  | @link n i j name rest target place hf hlink hslash hname h ih =>
    obtain ⟨⟨q, es, hd, hj⟩, hdot, hup, hsize⟩ := hf
    rw [FileSystem.walk, walkWith, hd]
    simp only [hdot, hup, Nat.not_lt.2 hsize, hslash, hj, hlink, if_false]
    rw [if_neg (by simpa using hname)]
    exact ih
  | @name n i j name target hf hlink hpurpose =>
    obtain ⟨through, hw⟩ := exists_walk_eq_walkWith fs purpose n
    obtain ⟨⟨q, es, hd, hj⟩, hdot, hup, hsize⟩ := hf
    rw [hw, walkWith, hd]
    simp [hdot, hup, Nat.not_lt.2 hsize, hj, hlink, hpurpose]

theorem walk_eq_ok_iff :
    fs.walk purpose n i names = .ok place ↔ fs.Reaches purpose n i names place :=
  ⟨reaches_of_walk, Reaches.walk⟩

theorem locateSteps_eq_ok_iff :
    fs.locateSteps purpose p names = .ok place ↔
      p.refusal? = none ∧ fs.Reaches purpose linkLimit (origin p fs.here) names place := by
  rw [locateSteps, ← walk_eq_ok_iff]
  cases p.refusal? <;> simp

theorem Reaches.directory_of_vacant {d : Inode} (h : fs.Reaches purpose n i names place)
    (hplace : place = .vacant d name) :
    ∃ q es, fs.node? d = some (.directory q es) ∧ es.lookup name = none := by
  induction h with
  | done i => cases hplace
  | stay _ _ _ ih => exact ih hplace
  | up _ _ ih => exact ih hplace
  | vacant hf =>
    cases hplace
    exact hf.directory
  | down _ _ _ _ ih => exact ih hplace
  | link _ _ _ _ _ ih => exact ih hplace
  | name _ _ _ => cases hplace

/-- There may be more names, more nodes and other contents of the files in `J`. -/
structure Grows (fs : FileSystem) (J : Set Inode) (fs' : FileSystem) : Prop
    extends fs.Extends fs' where
  link : ∀ {i target}, fs'.node? i = some (.link target) ↔ fs.node? i = some (.link target)
  file : ∀ {i f}, i ∉ J → (fs'.node? i = some (.file f) ↔ fs.node? i = some (.file f))

namespace Grows

theorem refl (fs : FileSystem) (J : Set Inode) : fs.Grows J fs := ⟨.refl fs, .rfl, fun _ ↦ .rfl⟩

theorem trans (h : fs.Grows J fs') (h' : fs'.Grows J fs'') : fs.Grows J fs'' :=
  ⟨h.toExtends.trans h'.toExtends, h'.link.trans h.link, fun hi ↦ (h'.file hi).trans (h.file hi)⟩

theorem mono (h : fs.Grows J fs') (hJ : J ⊆ K) : fs.Grows K fs' :=
  ⟨h.toExtends, h.link, fun hi ↦ h.file fun hj ↦ hi (hJ hj)⟩

theorem fileAt? (h : fs.Grows J fs') (hi : i ∉ J) : fs'.fileAt? i = fs.fileAt? i := by
  ext f
  rw [fileAt?_eq_some, fileAt?_eq_some, h.file hi]

theorem finds (h : fs.Grows J fs') (hf : fs.Finds i name (some j)) :
    fs'.Finds i name (some j) := by
  obtain ⟨⟨q, es, hd, hj⟩, hdot, hup, hsize⟩ := hf
  obtain ⟨es', hd', he⟩ := h.directory hd
  exact ⟨⟨q, es', hd', he hj⟩, hdot, hup, hsize⟩

end Grows

def IsAt (fs : FileSystem) (j : Inode) : Place → Prop
  | .node i => i = j
  | .vacant d name => fs.child? d name = some j ∧ ∀ target, fs.node? j ≠ some (.link target)

theorem Reaches.mono (h : fs.Reaches purpose n i names place) (hpurpose : purpose ≠ .name)
    (hgrows : fs.Grows J fs') (hat : fs'.IsAt j place) :
    fs'.Reaches .content n i names (.node j) := by
  induction h with
  | done i =>
    obtain rfl : i = j := hat
    exact .done i
  | stay hd hdot _ ih =>
    obtain ⟨es', hd', -⟩ := hgrows.directory hd
    exact .stay hd' hdot (ih hat)
  | up hd _ ih =>
    obtain ⟨es', hd', -⟩ := hgrows.directory hd
    exact .up hd' (ih hat)
  | vacant hf =>
    obtain ⟨⟨q, es, hd, -⟩, hdot, hup, hsize⟩ := hf
    obtain ⟨es', hd', -⟩ := hgrows.directory hd
    obtain ⟨hchild, hlink⟩ := hat
    rw [child?_of_directory hd'] at hchild
    exact .down ⟨⟨q, es', hd', hchild⟩, hdot, hup, hsize⟩ hlink (fun h ↦ nomatch h.1) (.done j)
  | down hf hlink _ _ ih =>
    have hlink' : ∀ target, fs'.node? _ ≠ some (.link target) :=
      fun target h ↦ hlink target (hgrows.link.1 h)
    exact .down (hgrows.finds hf) hlink' (fun h ↦ nomatch h.1) (ih hat)
  | link hf hlink _ _ _ ih =>
    exact .link (hgrows.finds hf) (hgrows.link.2 hlink) (fun h ↦ nomatch h.1)
      (fun h ↦ nomatch h.2) (ih hat)
  | name _ _ hname => exact absurd hname hpurpose

theorem Grows.resolve_of_locate (h : fs.Grows J fs') (hpurpose : purpose ≠ .name)
    (hlocate : fs.locateSteps purpose p p.steps = .ok place) (hat : fs'.IsAt j place) :
    fs'.resolve p = .ok j := by
  obtain ⟨haccepted, hreaches⟩ := locateSteps_eq_ok_iff.1 hlocate
  rw [resolve_eq_ok, locate, locateSteps_eq_ok_iff, h.here]
  exact ⟨haccepted, hreaches.mono hpurpose h hat⟩

/-- What a path stands for does not change while the file system grows. -/
theorem Grows.resolve (h : fs.Grows J fs') (hp : fs.resolve p = .ok i) : fs'.resolve p = .ok i := by
  have hcontent : Purpose.content ≠ .name := by decide
  exact h.resolve_of_locate hcontent (resolve_eq_ok.1 hp) rfl

end BootMedia.FileSystem
