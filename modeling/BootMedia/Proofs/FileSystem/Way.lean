import BootMedia.Proofs.FileSystem.Walk

namespace BootMedia

namespace Path

variable {base p : Path} {rest name : String} {ns : List String}

def follow (way : List String) (name : String) : List String :=
  if name = "." then way else if name = ".." then way.dropLast else way ++ [name]

/-- The way that a path describes, from the root down. -/
def way (p : Path) : List String := p.names.foldl follow []

theorem seenFrom_of_isAbsolute (base : Path) (h : p.isAbsolute) : base.seenFrom p = p := by
  change join base p.text = p
  rw [isAbsolute] at h
  rw [join, if_pos h]

theorem seenFrom_ne_self (hb : base.text ≠ "") (h : p.isAbsolute = false) (hne : p.text ≠ "") :
    base.seenFrom p ≠ base := by
  intro he
  have htext := congrArg (fun q : Path ↦ q.text.utf8ByteSize) he
  have hpos : 0 < p.text.utf8ByteSize := by
    rw [Nat.pos_iff_ne_zero, ne_eq, String.utf8ByteSize_eq_zero_iff]
    exact hne
  simp only [seenFrom, text_join_of_relative hb h, String.utf8ByteSize_append] at htext
  omega

theorem isAbsolute_seenFrom (h : base.isAbsolute) (p : Path) : (base.seenFrom p).isAbsolute := by
  cases hp : p.isAbsolute with
  | true => rwa [seenFrom_of_isAbsolute base hp]
  | false =>
    obtain ⟨slash, -, ht⟩ := exists_text_join base hp
    rw [isAbsolute, startsAtRoot] at h ⊢
    rw [seenFrom, ht, String.toList_append, String.toList_append, List.append_assoc]
    cases hc : base.text.toList with
    | nil => simp [hc] at h
    | cons c cs => simpa [hc] using h

theorem endsInSlash_append_of_ne {s : String} (hne : rest ≠ "") :
    endsInSlash (s ++ rest) = endsInSlash rest := by
  have hl : rest.toList ≠ [] := by simpa using hne
  simp [endsInSlash, List.getLast?_append, List.getLast?_eq_some_getLast hl]

theorem seenFrom_join (hb : base.text ≠ "") (hp : p.text ≠ "") (h : IsName name) :
    base.seenFrom (p / name) = base.seenFrom p / name := by
  have hn := isAbsolute_join hp h
  cases ha : p.isAbsolute with
  | true =>
    rw [ha] at hn
    rw [seenFrom_of_isAbsolute base ha, seenFrom_of_isAbsolute base hn]
  | false =>
    rw [ha] at hn
    have hne : (base / p.text).text ≠ "" := by
      rw [text_join_of_relative hb ha]
      simp [hp]
    have htext : (base.seenFrom (p / name)).text = (base.seenFrom p / name).text := by
      rw [seenFrom, seenFrom, text_join_of_relative hb hn, text_join hne h,
        text_join_of_relative hb ha, text_join hp h, endsInSlash_append_of_ne hp]
      simp only [String.append_assoc]
    exact congrArg Path.mk htext

theorem seenFrom_down (hb : base.text ≠ "") (hp : p.text ≠ "") (hns : ∀ n ∈ ns, IsName n) :
    base.seenFrom (p.down ns) = (base.seenFrom p).down ns := by
  induction ns generalizing p with
  | nil => rfl
  | cons n ns ih =>
    obtain ⟨hn, hns⟩ := List.forall_mem_cons.1 hns
    have h := ih (text_join_ne_empty hp hn) hns
    rwa [seenFrom_join hb hp hn] at h

theorem way_seenFrom (hb : base.text ≠ "") (h : p.isAbsolute = false) :
    (base.seenFrom p).way = p.names.foldl follow base.way := by
  rw [way, seenFrom, names_join_of_relative hb h, List.foldl_append]
  rfl

theorem foldl_follow_of_no_parent (h : ".." ∉ ns) (way : List String) :
    ns.foldl follow way = way ++ ns.filter (· ≠ ".") := by
  induction ns generalizing way with
  | nil => simp
  | cons n ns ih =>
    rw [List.mem_cons, not_or] at h
    rw [List.foldl_cons, ih h.2, follow]
    by_cases hn : n = "."
    · simp [hn]
    · simp [hn, Ne.symm h.1]

theorem foldl_follow_eq_self_iff (h : ".." ∉ ns) (way : List String) :
    ns.foldl follow way = way ↔ ∀ n ∈ ns, n = "." := by
  rw [foldl_follow_of_no_parent h]
  simp

end Path

namespace FileSystem

variable {fs : FileSystem} {i r r' : Inode} {u ns : List String} {p q : Path}

theorem Leads.descend_foldl_follow (h : fs.Leads i ns r) (ht : fs.IsTree)
    (hu : fs.descend rootInode u = some i) (hns : ∀ n ∈ ns, n ≠ "") :
    fs.descend rootInode (ns.foldl Path.follow u) = some r := by
  -- Each step of the walk is one of `follow`, so the way so far always leads to where it is.
  induction h generalizing u with
  | done i => exact hu
  | @stay i q r es name ns hd hn h ih =>
    obtain ⟨hne, hrest⟩ := List.forall_mem_cons.1 hns
    obtain rfl : name = "." := hn.resolve_right hne
    exact ih hu hrest
  | up hd h ih =>
    exact ih (ht.descend_dropLast hu hd) (List.forall_mem_cons.1 hns).2
  | @down i q j r es name ns hd hn hup hs hj h ih =>
    have hfollow : Path.follow u name = u ++ [name] := by
      rw [Path.follow, if_neg fun h ↦ hn (.inl h), if_neg hup]
    rw [List.foldl_cons, hfollow]
    exact ih (exists_descend_lookup hu hd hj) (List.forall_mem_cons.1 hns).2

theorem descend_way (ht : fs.IsTree) (hp : p.isAbsolute) (h : fs.directory p = .ok r) :
    fs.descend rootInode p.way = some r := by
  obtain ⟨-, hl, -⟩ := (directory_eq_ok_iff ht (begins_of_isAbsolute hp)).1 h
  rw [origin, if_pos hp] at hl
  exact hl.names.descend_foldl_follow ht rfl fun n hn ↦ (Path.isName_of_mem_names hn).1

/-- In a tree, two paths from the root lead to one directory exactly if their ways agree. -/
theorem directory_eq_iff_way_eq (ht : fs.IsTree) (hp : p.isAbsolute) (hq : q.isAbsolute)
    (hr : fs.directory p = .ok r) (hr' : fs.directory q = .ok r') : r = r' ↔ p.way = q.way := by
  have hway := descend_way ht hp hr
  have hway' := descend_way ht hq hr'
  constructor
  · rintro rfl
    exact ht.unique hway hway'
  · intro h
    rw [h] at hway
    exact Option.some.inj (hway.symm.trans hway')

end FileSystem

end BootMedia
