import BootMedia.FileSystem.Basic
import Mathlib.Logic.Function.Basic

namespace BootMedia

/-- A node without what a directory holds. -/
def Node.surface : Node → Node
  | .directory _ _ => .directory 0 []
  | n => n

@[simp]
theorem Node.surface_file (f : RegularFile) : (Node.file f).surface = .file f := rfl

def Node.folder : Node := .directory 0 []

@[simp]
theorem Node.surface_directory (p : Inode) (es : List (String × Inode)) :
    (Node.directory p es).surface = .folder := rfl

inductive Node.IsNew (d : Inode) : Node → Prop
  | directory : IsNew d (.directory d [])
  | file (f : RegularFile) : IsNew d (.file f)

namespace FileSystem

variable {fs fs' : FileSystem} {d i j p : Inode} {es : List (String × Inode)} {name : String}
  {n : Node} {f g : RegularFile} {ms ns w : List String}

def child? (fs : FileSystem) (i : Inode) (name : String) : Option Inode :=
  match fs.node? i with
  | some (.directory _ es) => es.lookup name
  | _ => none

def descend (fs : FileSystem) : Inode → List String → Option Inode
  | i, [] => some i
  | i, name :: rest => (fs.child? i name).bind fun j ↦ fs.descend j rest

/-- What can be seen at some names below `i`. -/
def view (fs : FileSystem) (i : Inode) (ns : List String) : Option Node :=
  (fs.descend i ns).bind fun j ↦ (fs.node? j).map Node.surface

/-- A file system without links, in which every node has one way that leads to it. -/
structure IsTree (fs : FileSystem) : Prop where
  root : ∃ es, fs.node? rootInode = some (.directory rootInode es)
  node : ∀ {ns i}, fs.descend rootInode ns = some i →
    ∃ n, fs.node? i = some n ∧ ∀ target, n ≠ .link target
  parent : ∀ {ns i name j p es}, fs.descend rootInode ns = some i → fs.child? i name = some j →
    fs.node? j = some (.directory p es) → p = i
  unique : ∀ {ms ns i}, fs.descend rootInode ms = some i → fs.descend rootInode ns = some i →
    ms = ns

theorem descend_append (fs : FileSystem) (i : Inode) (ms ns : List String) :
    fs.descend i (ms ++ ns) = (fs.descend i ms).bind (fs.descend · ns) := by
  induction ms generalizing i with
  | nil => rfl
  | cons m ms ih =>
    simp only [List.cons_append, descend]
    cases fs.child? i m with
    | none => rfl
    | some j => exact ih j

theorem descend_append_singleton (fs : FileSystem) (i : Inode) (ms : List String) (m : String) :
    fs.descend i (ms ++ [m]) = (fs.descend i ms).bind (fs.child? · m) := by
  rw [descend_append]
  congr
  funext j
  simp [descend]

theorem view_append (h : fs.descend i ms = some j) : fs.view i (ms ++ ns) = fs.view j ns := by
  rw [view, descend_append, h]
  rfl

theorem child?_of_directory (h : fs.node? i = some (.directory p es)) :
    fs.child? i name = es.lookup name := by
  rw [child?, h]

theorem directory_of_child? (h : fs.child? i name = some j) :
    ∃ p es, fs.node? i = some (.directory p es) ∧ es.lookup name = some j := by
  rw [child?] at h
  split at h
  · exact ⟨_, _, by assumption, h⟩
  · cases h

theorem fileAt?_eq_some : fs.fileAt? i = some f ↔ fs.node? i = some (.file f) := by
  rw [fileAt?]
  split
  · next hn => simp [hn]
  · next hn =>
    exact ⟨nofun, fun h ↦ absurd h (hn f)⟩

theorem view_eq_file :
    fs.view i ns = some (.file f) ↔
      ∃ j, fs.descend i ns = some j ∧ fs.node? j = some (.file f) := by
  simp only [view, Option.bind_eq_some_iff, Option.map_eq_some_iff]
  constructor
  · rintro ⟨j, hj, n, hn, hf⟩
    cases n with
    | file g =>
      cases hf
      exact ⟨j, hj, hn⟩
    | directory p es => cases hf
    | link target => cases hf
    | device d => cases hf
  · rintro ⟨j, hj, hn⟩
    exact ⟨j, hj, _, hn, rfl⟩

theorem view_eq_folder :
    fs.view i ns = some .folder ↔
      ∃ j p es, fs.descend i ns = some j ∧ fs.node? j = some (.directory p es) := by
  simp only [view, Option.bind_eq_some_iff, Option.map_eq_some_iff]
  constructor
  · rintro ⟨j, hj, n, hn, hf⟩
    cases n with
    | directory p es => exact ⟨j, p, es, hj, hn⟩
    | file g => cases hf
    | link target => cases hf
    | device d => cases hf
  · rintro ⟨j, p, es, hj, hn⟩
    exact ⟨j, hj, _, hn, rfl⟩

theorem IsTree.view_eq_none (ht : fs.IsTree) :
    fs.view rootInode ns = none ↔ fs.descend rootInode ns = none := by
  rw [view]
  cases h : fs.descend rootInode ns with
  | none => simp
  | some i =>
    obtain ⟨n, hn, -⟩ := ht.node h
    simp [hn]

theorem isTree_empty : empty.IsTree := by
  have hd : ∀ {ns i}, empty.descend rootInode ns = some i → ns = [] ∧ i = rootInode := by
    intro ns i h
    cases ns with
    | nil => exact ⟨rfl, (Option.some.inj h).symm⟩
    | cons n ns => cases h
  refine ⟨⟨[], rfl⟩, fun h ↦ ?_, fun h hj hp ↦ ?_, fun h h' ↦ ?_⟩
  · obtain ⟨rfl, rfl⟩ := hd h
    exact ⟨_, rfl, nofun⟩
  · obtain ⟨rfl, rfl⟩ := hd h
    cases hj
  · rw [(hd h).1, (hd h').1]

/-- All directories are kept, with all that they hold. -/
structure Extends (fs fs' : FileSystem) : Prop where
  here : fs'.here = fs.here
  directory : ∀ {i p es}, fs.node? i = some (.directory p es) →
    ∃ es', fs'.node? i = some (.directory p es') ∧
      ∀ {name j}, es.lookup name = some j → es'.lookup name = some j

namespace Extends

theorem refl (fs : FileSystem) : fs.Extends fs := ⟨rfl, fun h ↦ ⟨_, h, id⟩⟩

theorem trans {fs'' : FileSystem} (h : fs.Extends fs') (h' : fs'.Extends fs'') :
    fs.Extends fs'' := by
  refine ⟨h'.here.trans h.here, fun hi ↦ ?_⟩
  obtain ⟨es', hi', he⟩ := h.directory hi
  obtain ⟨es'', hi'', he'⟩ := h'.directory hi'
  exact ⟨es'', hi'', fun hn ↦ he' (he hn)⟩

theorem child? (h : fs.Extends fs') (hi : fs.child? i name = some j) :
    fs'.child? i name = some j := by
  obtain ⟨p, es, hd, hl⟩ := directory_of_child? hi
  obtain ⟨es', hd', he⟩ := h.directory hd
  rw [child?_of_directory hd']
  exact he hl

theorem descend (h : fs.Extends fs') (hi : fs.descend i ns = some j) :
    fs'.descend i ns = some j := by
  induction ns generalizing i with
  | nil => exact hi
  | cons n ns ih =>
    obtain ⟨k, hk, hj⟩ := Option.bind_eq_some_iff.1 hi
    rw [FileSystem.descend, h.child? hk]
    exact ih hj

theorem view_folder (h : fs.Extends fs') (hv : fs.view i ns = some .folder) :
    fs'.view i ns = some .folder := by
  obtain ⟨j, p, es, hj, hn⟩ := view_eq_folder.1 hv
  obtain ⟨es', hn', -⟩ := h.directory hn
  exact view_eq_folder.2 ⟨j, p, es', h.descend hj, hn'⟩

end Extends

theorem node?_lt (h : fs.node? i = some n) : i < fs.nodes.size :=
  (Array.getElem?_eq_some_iff.1 h).1

theorem ne_size (h : fs.node? i = some n) : i ≠ fs.nodes.size :=
  Nat.ne_of_lt (node?_lt h)

@[simp]
theorem node?_size (fs : FileSystem) : fs.node? fs.nodes.size = none := by simp [node?]

@[simp]
theorem child?_size (fs : FileSystem) (name : String) : fs.child? fs.nodes.size name = none := by
  simp [child?]

theorem node?_setNode (h : fs.node? i = some n) (m : Node) (j : Inode) :
    (fs.setNode i m).node? j = if j = i then some m else fs.node? j := by
  have hi := node?_lt h
  simp only [setNode, node?, Array.getElem?_setIfInBounds, hi, if_true]
  by_cases hj : j = i
  · simp [hj]
  · simp [hj, Ne.symm hj]

theorem child?_setNode_file (h : fs.node? i = some (.file f)) (j : Inode) (name : String) :
    (fs.setNode i (.file g)).child? j name = fs.child? j name := by
  rw [child?, child?, node?_setNode h]
  by_cases hj : j = i
  · simp [hj, h]
  · rw [if_neg hj]

theorem descend_congr (h : ∀ i name, fs'.child? i name = fs.child? i name) (i : Inode)
    (ns : List String) : fs'.descend i ns = fs.descend i ns := by
  induction ns generalizing i with
  | nil => rfl
  | cons n ns ih => simp only [descend, h, ih]

theorem descend_setNode_file (h : fs.node? i = some (.file f)) (j : Inode) (ns : List String) :
    (fs.setNode i (.file g)).descend j ns = fs.descend j ns :=
  descend_congr (child?_setNode_file h) j ns

theorem extends_setNode_file (h : fs.node? i = some (.file f)) :
    fs.Extends (fs.setNode i (.file g)) := by
  refine ⟨rfl, fun {j p es} hj ↦ ⟨es, ?_, id⟩⟩
  have hne : j ≠ i := by
    rintro rfl
    rw [h] at hj
    cases hj
  rw [node?_setNode h, if_neg hne, hj]

theorem IsTree.setNode_file (ht : fs.IsTree) (h : fs.node? i = some (.file f)) :
    (fs.setNode i (.file g)).IsTree := by
  have hd := fun ns ↦ descend_setNode_file (g := g) h rootInode ns
  obtain ⟨es, hr⟩ := ht.root
  obtain ⟨es', hr', -⟩ := (extends_setNode_file (g := g) h).directory hr
  refine ⟨⟨es', hr'⟩, fun {ns j} hj ↦ ?_, fun {ns j name k p es} hj hk hp ↦ ?_,
    fun {ms ns j} hm hn ↦ ?_⟩
  · obtain ⟨n, hn, hl⟩ := ht.node ((hd ns).symm.trans hj)
    rw [node?_setNode h]
    by_cases hji : j = i
    · exact ⟨.file g, if_pos hji, nofun⟩
    · exact ⟨n, by rw [if_neg hji, hn], hl⟩
  · rw [node?_setNode h] at hp
    split at hp
    · cases hp
    · exact ht.parent ((hd ns).symm.trans hj) ((child?_setNode_file h j name).symm.trans hk) hp
  · exact ht.unique ((hd ms).symm.trans hm) ((hd ns).symm.trans hn)

theorem view_setNode_file (ht : fs.IsTree) (hw : fs.descend rootInode w = some i)
    (h : fs.node? i = some (.file f)) :
    (fs.setNode i (.file g)).view rootInode =
      Function.update (fs.view rootInode) w (some (.file g)) := by
  funext ns
  rw [view, descend_setNode_file h]
  by_cases hns : ns = w
  · subst hns
    rw [Function.update_self, hw]
    simp [node?_setNode h]
  · rw [Function.update_of_ne hns, view]
    cases hj : fs.descend rootInode ns with
    | none => rfl
    | some j =>
      have hne : j ≠ i := by
        rintro rfl
        exact hns (ht.unique hj hw)
      simp [node?_setNode h, hne]

theorem node?_addNode (hd : fs.node? d = some (.directory p es)) (name : String) (n : Node)
    (i : Inode) :
    (fs.addNode d name n).node? i =
      if i = fs.nodes.size then some n
      else if i = d then some (.directory p (es ++ [(name, fs.nodes.size)]))
      else fs.node? i := by
  have hs : (fs.setNode d (.directory p (es ++ [(name, fs.nodes.size)]))).nodes.size =
      fs.nodes.size := by simp [setNode]
  rw [addNode, updateEntries, hd, ← node?_setNode hd]
  simp only [node?, Array.getElem?_push, hs]

theorem child?_addNode (hd : fs.node? d = some (.directory p es)) (hname : es.lookup name = none)
    (hn : n.IsNew d) (i : Inode) (m : String) :
    (fs.addNode d name n).child? i m =
      if i = d ∧ m = name then some fs.nodes.size else fs.child? i m := by
  by_cases hi : i = fs.nodes.size
  · have hne : ¬(i = d ∧ m = name) := fun h ↦ ne_size hd (h.1.symm.trans hi)
    rw [if_neg hne, hi, child?_size, child?, node?_addNode hd, if_pos rfl]
    cases hn <;> rfl
  · by_cases hid : i = d
    · subst hid
      rw [child?, node?_addNode hd, if_neg hi, if_pos rfl, child?_of_directory hd]
      by_cases hm : m = name
      · subst hm
        simp [List.lookup_append, hname]
      · have hm' : (m == name) = false := by simpa using hm
        simp [List.lookup_append, List.lookup_cons, hm, hm']
    · rw [if_neg (fun h ↦ hid h.1), child?, node?_addNode hd, if_neg hi, if_neg hid, child?]

theorem extends_addNode (hd : fs.node? d = some (.directory p es)) (name : String) (n : Node) :
    fs.Extends (fs.addNode d name n) := by
  have hh : (fs.addNode d name n).here = fs.here := by rw [addNode, updateEntries, hd]; rfl
  refine ⟨hh, fun {i q ds} hi ↦ ?_⟩
  rw [node?_addNode hd, if_neg (ne_size hi)]
  by_cases hid : i = d
  · subst hid
    obtain ⟨rfl, rfl⟩ : p = q ∧ es = ds := by
      rw [hd] at hi
      cases hi
      exact ⟨rfl, rfl⟩
    refine ⟨_, if_pos rfl, fun {m j} hm ↦ ?_⟩
    simp [List.lookup_append, hm]
  · rw [if_neg hid]
    exact ⟨ds, hi, id⟩

/-- What is reached after a node has been added was there before, or is that node. -/
theorem descend_addNode_cases (hd : fs.node? d = some (.directory p es))
    (hname : es.lookup name = none) (hn : n.IsNew d)
    (h : (fs.addNode d name n).descend i ns = some j) :
    fs.descend i ns = some j ∨
      j = fs.nodes.size ∧ ∃ ms, ns = ms ++ [name] ∧ fs.descend i ms = some d := by
  induction ns generalizing i with
  | nil => exact .inl h
  | cons m ns ih =>
    obtain ⟨k, hk, hj⟩ := Option.bind_eq_some_iff.1 h
    rw [child?_addNode hd hname hn] at hk
    split at hk
    · next hi =>
      obtain ⟨rfl, rfl⟩ := hi
      obtain rfl : fs.nodes.size = k := by simpa using hk
      cases ns with
      | nil =>
        obtain rfl : fs.nodes.size = j := by simpa [descend] using hj
        exact .inr ⟨rfl, [], rfl, rfl⟩
      | cons m' ns =>
        have hne : ¬(fs.nodes.size = i ∧ m' = m) := fun h ↦ ne_size hd h.1.symm
        rw [descend, child?_addNode hd hname hn, if_neg hne, child?_size] at hj
        cases hj
    · rcases ih hj with hj | ⟨rfl, ms, rfl, hms⟩
      · exact .inl (by rw [descend, hk]; exact hj)
      · exact .inr ⟨rfl, m :: ms, rfl, by rw [descend, hk]; exact hms⟩

theorem descend_addNode_self (hd : fs.node? d = some (.directory p es))
    (hname : es.lookup name = none) (hn : n.IsNew d) (hw : fs.descend i w = some d) :
    (fs.addNode d name n).descend i (w ++ [name]) = some fs.nodes.size := by
  rw [descend_append_singleton, (extends_addNode hd name n).descend hw]
  simp [child?_addNode hd hname hn]

theorem IsTree.parent_addNode {k q : Inode} {m : String} {ds : List (String × Inode)}
    (ht : fs.IsTree) (hd : fs.node? d = some (.directory p es)) (hname : es.lookup name = none)
    (hn : n.IsNew d)
    (hj : (fs.addNode d name n).descend rootInode ns = some j)
    (hk : (fs.addNode d name n).child? j m = some k)
    (hq : (fs.addNode d name n).node? k = some (.directory q ds)) : q = j := by
  rw [child?_addNode hd hname hn] at hk
  split at hk
  · next hm =>
    -- The new node: its parent is the directory that got it.
    obtain rfl : fs.nodes.size = k := by simpa using hk
    rw [node?_addNode hd, if_pos rfl] at hq
    rw [hm.1]
    cases hn with
    | directory =>
      cases hq
      rfl
    | file f => cases hq
  · rcases descend_addNode_cases hd hname hn hj with hj | ⟨rfl, -⟩
    · have hjk : fs.descend rootInode (ns ++ [m]) = some k := by
        rw [descend_append_singleton, hj]
        exact hk
      obtain ⟨l, hl, -⟩ := ht.node hjk
      rw [node?_addNode hd, if_neg (ne_size hl)] at hq
      split at hq
      · next hkd =>
        cases hq
        exact ht.parent hj hk (hkd ▸ hd)
      · exact ht.parent hj hk hq
    · simp at hk

theorem IsTree.addNode (ht : fs.IsTree) (hd : fs.node? d = some (.directory p es))
    (hname : es.lookup name = none) (hn : n.IsNew d) :
    (fs.addNode d name n).IsTree := by
  have hx := extends_addNode hd name n
  have hc {i ns j} := @descend_addNode_cases fs d i j p es name n ns hd hname hn
  obtain ⟨es', hr⟩ := ht.root
  obtain ⟨es'', hr', -⟩ := hx.directory hr
  refine ⟨⟨es'', hr'⟩, fun {ns j} hj ↦ ?_, ht.parent_addNode hd hname hn,
    fun {ms ns j} hm hns ↦ ?_⟩
  · rcases hc hj with hj | ⟨rfl, -⟩
    · obtain ⟨m, hm, hl⟩ := ht.node hj
      rw [node?_addNode hd, if_neg (ne_size hm)]
      by_cases hjd : j = d
      · exact ⟨_, if_pos hjd, nofun⟩
      · exact ⟨m, by rw [if_neg hjd, hm], hl⟩
    · rw [node?_addNode hd, if_pos rfl]
      refine ⟨n, rfl, ?_⟩
      cases hn <;> exact nofun
  · -- The new node has the name that it was given, and no other.
    have hold : ∀ {ns : List String}, fs.descend rootInode ns ≠ some fs.nodes.size := by
      intro ns h
      obtain ⟨m, hm, -⟩ := ht.node h
      exact ne_size hm rfl
    rcases hc hm with hm | ⟨rfl, ms, rfl, hms⟩
    · rcases hc hns with hns | ⟨rfl, -⟩
      · exact ht.unique hm hns
      · exact absurd hm hold
    · rcases hc hns with hns | ⟨-, ks, rfl, hks⟩
      · exact absurd hns hold
      · rw [ht.unique hms hks]

theorem view_addNode (ht : fs.IsTree) (hw : fs.descend rootInode w = some d)
    (hd : fs.node? d = some (.directory p es)) (hname : es.lookup name = none) (hn : n.IsNew d) :
    (fs.addNode d name n).view rootInode =
      Function.update (fs.view rootInode) (w ++ [name]) (some n.surface) := by
  funext ns
  by_cases hns : ns = w ++ [name]
  · subst hns
    rw [view, descend_addNode_self hd hname hn hw, Function.update_self]
    simp [node?_addNode hd]
  · rw [Function.update_of_ne hns, view, view]
    cases hj : (fs.addNode d name n).descend rootInode ns with
    | none =>
      have hnone : fs.descend rootInode ns = none := by
        cases hi : fs.descend rootInode ns with
        | none => rfl
        | some i =>
          rw [(extends_addNode hd name n).descend hi] at hj
          cases hj
      rw [hnone]
      rfl
    | some j =>
      rcases descend_addNode_cases hd hname hn hj with hi | ⟨-, ms, rfl, hms⟩
      · obtain ⟨m, hm, -⟩ := ht.node hi
        rw [hi, Option.bind_some, Option.bind_some, node?_addNode hd, if_neg (ne_size hm)]
        by_cases hjd : j = d
        · rw [if_pos hjd, hjd, hd]
          rfl
        · rw [if_neg hjd]
      · exact absurd (congrArg (· ++ [name]) (ht.unique hms hw)) hns

end FileSystem

end BootMedia
