import BootMedia.FileSystem.Walk
import BootMedia.Proofs.FileSystem.Tree
import BootMedia.Proofs.Path

namespace BootMedia.FileSystem

variable {fs fs' : FileSystem} {purpose : Purpose} {i j r : Inode} {ms ns u w : List String}
  {name : String} {through : Inode → List String → Except SystemError Place}

/-- A name that stands for an entry of a directory. -/
def IsEntryName (s : String) : Prop :=
  Path.IsName s ∧ s ≠ "." ∧ s ≠ ".." ∧ s.utf8ByteSize ≤ nameLimit ∧ '\x00' ∉ s.toList

instance (s : String) : Decidable (IsEntryName s) := inferInstanceAs (Decidable (_ ∧ _))

theorem dot_not_mem (h : ∀ n ∈ ns, IsEntryName n) : "." ∉ ns := fun hmem ↦ (h _ hmem).2.1 rfl

/-- The names lead from `i` to `r` without a link. -/
inductive Leads (fs : FileSystem) : Inode → List String → Inode → Prop
  | done (i : Inode) : Leads fs i [] i
  | stay {i p r : Inode} {es : List (String × Inode)} {name : String} {ms : List String} :
      fs.node? i = some (.directory p es) → name = "." ∨ name = "" → Leads fs i ms r →
      Leads fs i (name :: ms) r
  | up {i p r : Inode} {es : List (String × Inode)} {ms : List String} :
      fs.node? i = some (.directory p es) → Leads fs p ms r → Leads fs i (".." :: ms) r
  | down {i p j r : Inode} {es : List (String × Inode)} {name : String} {ms : List String} :
      fs.node? i = some (.directory p es) → ¬(name = "." ∨ name = "") → name ≠ ".." →
      name.utf8ByteSize ≤ nameLimit → es.lookup name = some j → Leads fs j ms r →
      Leads fs i (name :: ms) r

theorem IsTree.descend_dropLast {p : Inode} {es : List (String × Inode)} (ht : fs.IsTree)
    (hu : fs.descend rootInode u = some i) (h : fs.node? i = some (.directory p es)) :
    fs.descend rootInode u.dropLast = some p := by
  rcases List.eq_nil_or_concat u with rfl | ⟨u, n, rfl⟩
  · obtain rfl : rootInode = i := by simpa [descend] using hu
    obtain ⟨es', hr⟩ := ht.root
    rw [hr] at h
    cases h
    exact rfl
  · rw [List.concat_eq_append] at hu ⊢
    rw [descend_append_singleton] at hu
    obtain ⟨k, hk, hi⟩ := Option.bind_eq_some_iff.1 hu
    obtain rfl := ht.parent hk hi h
    rw [List.dropLast_concat]
    exact hk

theorem exists_descend_lookup {p : Inode} {es : List (String × Inode)}
    (hu : fs.descend rootInode u = some i) (h : fs.node? i = some (.directory p es))
    (hj : es.lookup name = some j) : fs.descend rootInode (u ++ [name]) = some j := by
  rw [descend_append_singleton, hu]
  exact (child?_of_directory h).trans hj

namespace Leads

theorem exists_descend (h : fs.Leads i ms r) (ht : fs.IsTree)
    (hu : fs.descend rootInode u = some i) : ∃ w, fs.descend rootInode w = some r := by
  induction h generalizing u with
  | done i => exact ⟨u, hu⟩
  | stay hd hn h ih => exact ih hu
  | up hd h ih =>
    exact ih (ht.descend_dropLast hu hd)
  | down hd hn hn' hs hj h ih => exact ih (exists_descend_lookup hu hd hj)

theorem mono (h : fs.Leads i ms r) (hx : fs.Extends fs') : fs'.Leads i ms r := by
  induction h with
  | done i => exact .done i
  | stay hd hn h ih =>
    obtain ⟨es', hd', -⟩ := hx.directory hd
    exact .stay hd' hn ih
  | up hd h ih =>
    obtain ⟨es', hd', -⟩ := hx.directory hd
    exact .up hd' ih
  | down hd hn hn' hs hj h ih =>
    obtain ⟨es', hd', he⟩ := hx.directory hd
    exact .down hd' hn hn' hs (he hj) ih

theorem append (h : fs.Leads i ms j) (h' : fs.Leads j ns r) : fs.Leads i (ms ++ ns) r := by
  induction h with
  | done i => exact h'
  | stay hd hn h ih => exact .stay hd hn (ih h')
  | up hd h ih => exact .up hd (ih h')
  | down hd hn hn' hs hj h ih => exact .down hd hn hn' hs hj (ih h')

theorem of_append (h : fs.Leads i (ms ++ ns) r) : ∃ j, fs.Leads i ms j ∧ fs.Leads j ns r := by
  induction ms generalizing i with
  | nil => exact ⟨i, .done i, h⟩
  | cons m ms ih =>
    cases h with
    | stay hd hn h =>
      obtain ⟨j, hj, hr⟩ := ih h
      exact ⟨j, .stay hd hn hj, hr⟩
    | up hd h =>
      obtain ⟨j, hj, hr⟩ := ih h
      exact ⟨j, .up hd hj, hr⟩
    | down hd hn hn' hs hl h =>
      obtain ⟨j, hj, hr⟩ := ih h
      exact ⟨j, .down hd hn hn' hs hl hj, hr⟩

theorem of_append_empty (h : fs.Leads i (ms ++ [""]) r) : fs.Leads i ms r := by
  obtain ⟨j, hj, hr⟩ := h.of_append
  generalize hl : [""] = l at hr
  cases hr with
  | done => cases hl
  | stay hd hn h =>
    obtain ⟨-, rfl⟩ := List.cons.inj hl
    cases h
    exact hj
  | up hd h => exact absurd (List.cons.inj hl).1 (by decide)
  | down hd hn => exact absurd (.inr (List.cons.inj hl).1.symm) hn

theorem of_descend (h : fs.descend i ns = some j) (hns : ∀ n ∈ ns, IsEntryName n) :
    fs.Leads i ns j := by
  induction ns generalizing i with
  | nil =>
    obtain rfl : i = j := by simpa [descend] using h
    exact .done i
  | cons n ns ih =>
    obtain ⟨hn, hns⟩ := List.forall_mem_cons.1 hns
    obtain ⟨k, hk, hj⟩ := Option.bind_eq_some_iff.1 h
    obtain ⟨p, es, hd, hl⟩ := directory_of_child? hk
    obtain ⟨⟨hne, -⟩, hdot, hdots, hs, -⟩ := hn
    exact .down hd (fun h ↦ h.elim hdot hne) hdots hs hl (ih hj hns)

end Leads

theorem Leads.plain (h : fs.Leads i ms r) : fs.Leads i (Path.plain ms) r := by
  induction h with
  | done i => exact .done i
  | @stay i q r es name ms hd hn h ih =>
    by_cases hdot : name = "."
    · simpa [Path.plain, hdot] using ih
    · simpa [Path.plain, hdot] using Leads.stay hd hn ih
  | up hd h ih => simpa [Path.plain] using Leads.up hd ih
  | @down i q j r es name ms hd hn hup hs hj h ih =>
    have hdot : name ≠ "." := fun he ↦ hn (.inl he)
    simpa [Path.plain, hdot] using Leads.down hd hn hup hs hj ih

theorem walkWith_down {p : Inode} {es : List (String × Inode)} {n : Node}
    (hd : fs.node? i = some (.directory p es)) (hname : ¬(name = "." ∨ name = ""))
    (hup : name ≠ "..") (hs : name.utf8ByteSize ≤ nameLimit) (hj : es.lookup name = some j)
    (hn : fs.node? j = some n) (hl : ∀ target, n ≠ .link target)
    (ho : purpose = .output → ms ≠ [""]) :
    fs.walkWith purpose through i (name :: ms) = fs.walkWith purpose through j ms := by
  have ho' : ¬(purpose = .output ∧ ms = [""]) := fun h ↦ ho h.1 h.2
  rw [walkWith, hd]
  simp only [hname, hup, ho', Nat.not_lt.2 hs, hj, hn, if_false]
  cases n with
  | link target => exact absurd rfl (hl target)
  | directory p es => rfl
  | file f => rfl
  | device d => rfl

theorem Leads.walkWith_append (h : fs.Leads i ms r) (ht : fs.IsTree)
    (hu : fs.descend rootInode u = some i) (purpose : Purpose)
    (through : Inode → List String → Except SystemError Place) (ns : List String)
    (ho : purpose = .output → "" ∉ ms ++ ns) :
    fs.walkWith purpose through i (ms ++ ns) = fs.walkWith purpose through r ns := by
  induction h generalizing u with
  | done i => rfl
  | stay hd hn h ih =>
    rw [List.cons_append, walkWith, hd]
    simp only [hn, if_true]
    exact ih hu fun hp hm ↦ ho hp (List.mem_cons_of_mem _ hm)
  | up hd h ih =>
    have hw := ht.descend_dropLast hu hd
    rw [List.cons_append, walkWith, hd]
    exact ih hw fun hp hm ↦ ho hp (List.mem_cons_of_mem _ hm)
  | down hd hn hn' hs hj h ih =>
    have hw := exists_descend_lookup hu hd hj
    obtain ⟨n, hnode, hl⟩ := ht.node hw
    rw [List.cons_append, walkWith_down hd hn hn' hs hj hnode hl]
    · exact ih hw fun hp hm ↦ ho hp (List.mem_cons_of_mem _ hm)
    · exact fun hp he ↦ ho hp (by simp [he])

theorem walkWith_of_not_directory (hne : ms ≠ [])
    (hd : ∀ p es, fs.node? i ≠ some (.directory p es)) :
    fs.walkWith purpose through i ms = .error .notDirectory := by
  obtain ⟨m, ms, rfl⟩ := List.exists_cons_of_ne_nil hne
  rw [walkWith]
  split
  · next p es hn => exact absurd hn (hd p es)
  · rfl

theorem walkWith_cons_congr (ht : fs.IsTree) (hu : fs.descend rootInode u = some i)
    (hnil : ms = [] ↔ ns = []) (ho : purpose = .output → "" ∉ ms ∧ "" ∉ ns)
    (h : ∀ j w, fs.descend rootInode w = some j →
      fs.walkWith purpose through j ms = fs.walkWith purpose through j ns) :
    fs.walkWith purpose through i (name :: ms) = fs.walkWith purpose through i (name :: ns) := by
  have hms : ¬(purpose = .output ∧ ms = [""]) := fun hp ↦ (ho hp.1).1 (by simp [hp.2])
  have hns : ¬(purpose = .output ∧ ns = [""]) := fun hp ↦ (ho hp.1).2 (by simp [hp.2])
  rw [walkWith, walkWith]
  split
  · next p es hd =>
    simp only [hms, hns, if_false]
    split
    · exact h i u hu
    split
    · exact h p _ (ht.descend_dropLast hu hd)
    split
    · rfl
    cases hj : es.lookup name with
    | none => simp [hnil]
    | some j =>
      have hw := exists_descend_lookup hu hd hj
      obtain ⟨n, hnode, hl⟩ := ht.node hw
      simp only [hnode]
      cases n with
      | link target => exact absurd rfl (hl target)
      | directory q ds => exact h j _ hw
      | file f => exact h j _ hw
      | device d => exact h j _ hw
  · rfl

/-- A walk goes the same way without the dots, if it does not end in one. -/
theorem walkWith_plain (ht : fs.IsTree) (hu : fs.descend rootInode u = some i)
    (hlast : ms.getLast? ≠ some ".") (ho : purpose = .output → "" ∉ ms) :
    fs.walkWith purpose through i (Path.plain ms) = fs.walkWith purpose through i ms := by
  induction ms generalizing i u with
  | nil => rfl
  | cons m ms ih =>
    have hlast' : ms.getLast? ≠ some "." := by
      cases ms with
      | nil => simp
      | cons k ms => rwa [List.getLast?_cons_cons] at hlast
    have ho' : purpose = .output → "" ∉ ms := fun hp hm ↦ ho hp (List.mem_cons_of_mem _ hm)
    by_cases hdot : m = "."
    · subst hdot
      have hne : ms ≠ [] := by
        rintro rfl
        exact hlast rfl
      -- The walk with the dot asks for a directory here, and the one without it does so later.
      change fs.walkWith purpose through i (Path.plain ms) = _
      by_cases hd : ∃ p es, fs.node? i = some (.directory p es)
      · obtain ⟨p, es, hd⟩ := hd
        rw [ih hu hlast' ho', walkWith, hd]
        rfl
      · have hd' : ∀ p es, fs.node? i ≠ some (.directory p es) := fun p es h ↦ hd ⟨p, es, h⟩
        rw [walkWith_of_not_directory ((Path.plain_eq_nil_iff hlast').not.2 hne) hd',
          walkWith_of_not_directory (List.cons_ne_nil _ ms) hd']
    · have hplain : Path.plain (m :: ms) = m :: Path.plain ms := by simp [Path.plain, hdot]
      rw [hplain]
      exact walkWith_cons_congr ht hu (Path.plain_eq_nil_iff hlast')
        (fun hp ↦ ⟨fun hm ↦ ho' hp (List.mem_filter.1 hm).1, ho' hp⟩)
        fun j w hw ↦ ih hw hlast' ho'

theorem Leads.unique (h : fs.Leads i ms r) (h' : fs.Leads i ms j) (ht : fs.IsTree)
    (hu : fs.descend rootInode u = some i) : r = j := by
  have hw := h.walkWith_append ht hu .content (fun _ _ ↦ .error .linkLoop) [] nofun
  rw [h'.walkWith_append ht hu .content _ [] nofun] at hw
  cases hw
  rfl

theorem leads_of_walkWith (ht : fs.IsTree) (hu : fs.descend rootInode u = some i)
    (h : fs.walkWith purpose through i ms = .ok (.node r)) : fs.Leads i ms r := by
  -- The names that lead to `i` go along, for in a tree no node that names lead to is a link.
  induction ms generalizing i u with
  | nil =>
    obtain rfl : i = r := by simpa [walkWith] using h
    exact .done i
  | cons m ms ih =>
    rw [walkWith] at h
    split at h
    · next p es hd =>
      split at h
      · next hm => exact .stay hd hm (ih hu h)
      · next hm =>
        split at h
        · next hup =>
          have hw := ht.descend_dropLast hu hd
          exact hup ▸ .up hd (ih hw h)
        · next hup =>
          split at h
          · cases h
          · split at h
            · cases h
            · next hs =>
              cases hj : es.lookup m with
              | none =>
                rw [hj] at h
                dsimp only at h
                split at h <;> cases h
              | some j =>
                have hw := exists_descend_lookup hu hd hj
                obtain ⟨n, hnode, hl⟩ := ht.node hw
                refine .down hd hm hup (Nat.not_lt.1 hs) hj (ih hw ?_)
                rw [hj] at h
                dsimp only at h
                rw [hnode] at h
                cases n with
                | link target => exact absurd rfl (hl target)
                | directory p es => exact h
                | file f => exact h
                | device d => exact h
    · cases h

theorem Leads.descend (h : fs.Leads i ns j) (hns : ∀ n ∈ ns, IsEntryName n) :
    fs.descend i ns = some j := by
  induction h with
  | done i => rfl
  | stay hd hn h ih =>
    obtain ⟨⟨hne, -⟩, hdot, -⟩ := hns _ List.mem_cons_self
    exact absurd hn fun hn ↦ hn.elim hdot hne
  | up hd h ih => exact absurd rfl (hns _ List.mem_cons_self).2.2.1
  | down hd hn hn' hs hj h ih =>
    rw [FileSystem.descend, child?_of_directory hd, hj]
    exact ih fun n hn ↦ hns n (List.mem_cons_of_mem _ hn)

/-- A path begins in the tree, which one that begins at the root always does. -/
def Begins (fs : FileSystem) (p : Path) : Prop :=
  ∃ u, fs.descend rootInode u = some (origin p fs.here)

theorem begins_of_isAbsolute {p : Path} (h : p.isAbsolute) : fs.Begins p := by
  refine ⟨[], ?_⟩
  rw [origin, if_pos h]
  rfl

theorem Begins.mono {p : Path} (h : fs.Begins p) (hx : fs.Extends fs') : fs'.Begins p := by
  obtain ⟨u, hu⟩ := h
  exact ⟨u, hx.here ▸ hx.descend hu⟩

theorem isDirectoryAt_iff :
    fs.isDirectoryAt i = true ↔ ∃ p es, fs.node? i = some (.directory p es) := by
  rw [isDirectoryAt]
  split
  · next hn => simp [hn]
  · next hn => exact ⟨nofun, fun ⟨p, es, h⟩ ↦ absurd h (hn p es)⟩

theorem isDirectoryAt_mono (hx : fs.Extends fs') (h : fs.isDirectoryAt i) :
    fs'.isDirectoryAt i := by
  obtain ⟨q, es, hn⟩ := isDirectoryAt_iff.1 h
  obtain ⟨es', hn', -⟩ := hx.directory hn
  exact isDirectoryAt_iff.2 ⟨q, es', hn'⟩

variable {p root : Path}

theorem locateSteps_eq (hp : p.refusal? = none) (ns : List String) :
    fs.locateSteps purpose p ns =
      fs.walkWith purpose (fs.walk purpose (linkLimit - 1)) (origin p fs.here) ns := by
  rw [locateSteps, hp]
  rfl

theorem resolve_of_refusal {e : SystemError} (hp : p.refusal? = some e) :
    fs.resolve p = .error e := by
  rw [resolve, locate, locateSteps, hp]

theorem resolve_eq_ok : fs.resolve p = .ok r ↔ fs.locate p = .ok (.node r) := by
  rw [resolve]
  split
  · next h => simp [h]
  · next h => simp [h]
  · next h => simp [h]

theorem directory_eq_ok : fs.directory p = .ok r ↔ fs.resolve p = .ok r ∧ fs.isDirectoryAt r := by
  rw [directory]
  cases h : fs.resolve p with
  | error e =>
    refine ⟨nofun, fun h ↦ ?_⟩
    cases h.1
  | ok i =>
    change (if fs.isDirectoryAt i then Except.ok i else .error SystemError.notDirectory) = .ok r ↔ _
    constructor
    · intro h
      split at h
      · next hi =>
        cases h
        exact ⟨rfl, hi⟩
      · cases h
    · rintro ⟨hi, hd⟩
      cases hi
      rw [if_pos hd]

theorem isDirectory_iff :
    fs.isDirectory p = true ↔ ∃ r, fs.directory p = .ok r := by
  simp only [directory_eq_ok]
  rw [isDirectory]
  cases fs.resolve p with
  | error e =>
    constructor
    · rintro ⟨⟩
    · rintro ⟨r, ⟨⟩, -⟩
  | ok i =>
    refine ⟨fun h ↦ ⟨i, rfl, h⟩, ?_⟩
    rintro ⟨r, hr, h⟩
    cases hr
    exact h

theorem refusal?_of_resolve (h : fs.resolve p = .ok r) : p.refusal? = none := by
  cases hp : p.refusal? with
  | none => rfl
  | some e =>
    rw [resolve_of_refusal hp] at h
    cases h

theorem file?_eq_some {f : RegularFile} :
    fs.file? p = some f ↔ ∃ i, fs.resolve p = .ok i ∧ fs.fileAt? i = some f := by
  rw [file?]
  cases fs.resolve p with
  | error e =>
    refine ⟨nofun, ?_⟩
    rintro ⟨i, ⟨⟩, -⟩
  | ok j =>
    refine ⟨fun h ↦ ⟨j, rfl, h⟩, ?_⟩
    rintro ⟨i, hi, hf⟩
    cases hi
    exact hf

/-- In a tree, a path names a node when its names lead there. -/
theorem resolve_eq_ok_iff (ht : fs.IsTree) (hb : fs.Begins p) :
    fs.resolve p = .ok r ↔ p.refusal? = none ∧ fs.Leads (origin p fs.here) p.steps r := by
  obtain ⟨u, hu⟩ := hb
  constructor
  · intro h
    have hp := refusal?_of_resolve h
    rw [resolve_eq_ok, locate, locateSteps_eq hp] at h
    exact ⟨hp, leads_of_walkWith ht hu h⟩
  · rintro ⟨hp, h⟩
    have hw := h.walkWith_append ht hu .content (fs.walk .content (linkLimit - 1)) [] nofun
    rw [resolve_eq_ok, locate, locateSteps_eq hp]
    rwa [List.append_nil] at hw

theorem directory_eq_ok_iff (ht : fs.IsTree) (hb : fs.Begins p) :
    fs.directory p = .ok r ↔
      p.refusal? = none ∧ fs.Leads (origin p fs.here) p.steps r ∧ fs.isDirectoryAt r := by
  rw [directory_eq_ok, resolve_eq_ok_iff ht hb, and_assoc]

theorem Leads.names (h : fs.Leads i p.steps r) : fs.Leads i p.names r := by
  rw [Path.steps] at h
  split at h
  · exact h.of_append_empty
  · exact h

theorem exists_descend_of_leads (ht : fs.IsTree) (hb : fs.Begins root)
    (hr : fs.Leads (origin root fs.here) ns r) : ∃ w, fs.descend rootInode w = some r := by
  obtain ⟨u, hu⟩ := hb
  exact hr.exists_descend ht hu

section Below

variable (ht : fs.IsTree) (hb : fs.Begins root)
  (hr : fs.Leads (origin root fs.here) root.names r) (hp : p.IsBelow root ns)
include ht hb hr hp

theorem locateSteps_eq_walkWith (purpose : Purpose) :
    fs.locateSteps purpose p p.names =
      fs.walkWith purpose (fs.walk purpose (linkLimit - 1)) r ns := by
  obtain ⟨u, hu⟩ := hb
  have ho : origin p fs.here = origin root fs.here := by rw [origin, origin, hp.absolute]
  have hne : "" ∉ p.names := fun h ↦ (Path.isName_of_mem_names h).1 rfl
  have hne' : "" ∉ Path.plain root.names ++ ns := by
    rw [← hp.names]
    exact fun h ↦ hne (List.mem_filter.1 h).1
  rw [locateSteps_eq hp.accepted, ho, ← walkWith_plain ht hu hp.last fun _ ↦ hne, hp.names]
  exact hr.plain.walkWith_append ht hu _ _ _ fun _ ↦ hne'

variable (hns : ∀ n ∈ ns, IsEntryName n)
include hns

/-- The walk along such a path goes on from any node on its way. -/
theorem locateSteps_eq_of_descend (purpose : Purpose) {d : Inode} {us : List String}
    (hsplit : ns = us ++ ms) (hd : fs.descend r us = some d) :
    fs.locateSteps purpose p p.names =
      fs.walkWith purpose (fs.walk purpose (linkLimit - 1)) d ms := by
  obtain ⟨w, hw⟩ := exists_descend_of_leads ht hb hr
  have hne : "" ∉ us ++ ms := fun h ↦ (hns _ (hsplit ▸ h)).1.1 rfl
  have hus : ∀ n ∈ us, IsEntryName n := fun n hn ↦ hns n (hsplit ▸ List.mem_append_left _ hn)
  rw [locateSteps_eq_walkWith ht hb hr hp, hsplit]
  exact (Leads.of_descend hd hus).walkWith_append ht hw _ _ _ fun _ ↦ hne

theorem locateSteps_of_descend (purpose : Purpose) (hj : fs.descend r ns = some j) :
    fs.locateSteps purpose p p.names = .ok (.node j) :=
  locateSteps_eq_of_descend ht hb hr hp hns purpose (List.append_nil ns).symm hj

theorem resolve_of_descend (hj : fs.descend r ns = some j) : fs.resolve p = .ok j := by
  rw [resolve_eq_ok, locate, hp.steps]
  exact locateSteps_of_descend ht hb hr hp hns .content hj

theorem descend_of_resolve (h : fs.resolve p = .ok j) : fs.descend r ns = some j := by
  obtain ⟨w, hw⟩ := exists_descend_of_leads ht hb hr
  rw [resolve_eq_ok, locate, hp.steps, locateSteps_eq_walkWith ht hb hr hp] at h
  exact (leads_of_walkWith ht hw h).descend hns

theorem locateSteps_of_lookup_none (purpose : Purpose) {d q : Inode}
    {es : List (String × Inode)} {us : List String} (hsplit : ns = us ++ name :: ms)
    (hd : fs.descend r us = some d) (hn : fs.node? d = some (.directory q es))
    (hl : es.lookup name = none) :
    fs.locateSteps purpose p p.names =
      if ms = [] then .ok (.vacant d name) else .error .notFound := by
  obtain ⟨⟨hname, -⟩, hdot, hup, hsize, -⟩ : IsEntryName name := hns name (by simp [hsplit])
  have ho : ¬(purpose = .output ∧ ms = [""]) := by
    rintro ⟨-, rfl⟩
    exact (hns "" (by simp [hsplit])).1.1 rfl
  rw [locateSteps_eq_of_descend ht hb hr hp hns purpose hsplit hd, walkWith, hn]
  simp only [hdot, hname, hup, ho, Nat.not_lt.2 hsize, hl, if_false, or_self]
  cases ms <;> rfl

theorem locateSteps_of_no_directory (purpose : Purpose) {d : Inode} {us : List String}
    (hsplit : ns = us ++ name :: ms) (hd : fs.descend r us = some d)
    (hn : fs.isDirectoryAt d = false) :
    fs.locateSteps purpose p p.names = .error .notDirectory := by
  rw [locateSteps_eq_of_descend ht hb hr hp hns purpose hsplit hd, walkWith]
  split
  · next q es hdir =>
    rw [isDirectoryAt, hdir] at hn
    cases hn
  · rfl

theorem file?_eq_some_iff {f : RegularFile} :
    fs.file? p = some f ↔ fs.view r ns = some (.file f) := by
  rw [file?_eq_some, view_eq_file]
  constructor
  · rintro ⟨j, hj, hf⟩
    exact ⟨j, descend_of_resolve ht hb hr hp hns hj, fileAt?_eq_some.1 hf⟩
  · rintro ⟨j, hj, hn⟩
    exact ⟨j, resolve_of_descend ht hb hr hp hns hj, fileAt?_eq_some.2 hn⟩

theorem isDirectory_of_view (h : fs.view r ns = some .folder) : fs.isDirectory p := by
  obtain ⟨j, q, es, hj, hn⟩ := view_eq_folder.1 h
  rw [isDirectory, resolve_of_descend ht hb hr hp hns hj]
  exact isDirectoryAt_iff.2 ⟨q, es, hn⟩

end Below

end BootMedia.FileSystem
