import BootMedia.FileSystem.Tree
import BootMedia.Proofs.Text.Words
import Mathlib.Algebra.GroupWithZero.Nat

namespace BootMedia.Path

def IsName (s : String) : Prop := s ≠ "" ∧ '/' ∉ s.toList

instance (s : String) : Decidable (IsName s) := inferInstanceAs (Decidable (_ ∧ _))

def pieces (cs : List Char) : List (List Char) := (cs.splitOn '/').filter (· ≠ [])

variable {base p : Path} {rest : String} {ns : List String}

theorem names_eq (p : Path) : p.names = (pieces p.text.toList).map String.ofList := rfl

theorem pieces_append (cs ds : List Char) : pieces (cs ++ '/' :: ds) = pieces cs ++ pieces ds := by
  rw [pieces, List.splitOn_append_cons_self, List.filter_append]
  rfl

theorem pieces_of_isName (h : IsName rest) : pieces rest.toList = [rest.toList] := by
  rw [pieces, List.splitOn_eq_singleton h.2]
  have hne : rest.toList ≠ [] := by simpa using h.1
  simp [hne]

theorem startsAtRoot_of_isName (h : IsName rest) : startsAtRoot rest = false := by
  cases hc : rest.toList with
  | nil => simp [startsAtRoot, hc]
  | cons c cs =>
    have hs : c ≠ '/' := by
      rintro rfl
      exact h.2 (by simp [hc])
    simp [startsAtRoot, hc, hs]

theorem exists_text_join (base : Path) (h : startsAtRoot rest = false) :
    ∃ slash, (slash = "" ∨ slash = "/") ∧ (base / rest).text = base.text ++ slash ++ rest := by
  change ∃ slash, _ ∧ (join base rest).text = _
  rw [join, h]
  cases base.text.isEmpty || endsInSlash base.text
  · exact ⟨"/", .inr rfl, rfl⟩
  · exact ⟨"", .inl rfl, by simp⟩

theorem exists_stem (base : Path) :
    ∃ stem, ∀ rest, startsAtRoot rest = false → base / rest = ⟨stem ++ rest⟩ := by
  cases hb : base.text.isEmpty || endsInSlash base.text with
  | true =>
    refine ⟨base.text, fun rest h ↦ ?_⟩
    change join base rest = _
    rw [join, h, hb]
    rfl
  | false =>
    refine ⟨base.text ++ "/", fun rest h ↦ ?_⟩
    change join base rest = _
    rw [join, h, hb]
    rfl

theorem mem_join_iff {c : Char} (base : Path) (h : startsAtRoot rest = false) (hc : c ≠ '/') :
    c ∈ (base / rest).text.toList ↔ c ∈ base.text.toList ∨ c ∈ rest.toList := by
  obtain ⟨slash, hslash, ht⟩ := exists_text_join base h
  have hcs : c ∉ slash.toList := by
    rcases hslash with rfl | rfl
    · simp
    · simpa using hc
  rw [ht]
  simp [hcs]

theorem join_ne_empty (base : Path) (h : startsAtRoot rest = false) (hne : rest ≠ "") :
    (base / rest).text ≠ "" := by
  obtain ⟨slash, -, ht⟩ := exists_text_join base h
  simp [ht, hne]

theorem text_join_of_relative (hb : base.text ≠ "") (h : startsAtRoot rest = false) :
    (base / rest).text = base.text ++ (if endsInSlash base.text then "" else "/") ++ rest := by
  change (join base rest).text = _
  have he : base.text.isEmpty = false := by simpa using hb
  rw [join, h, he]
  cases endsInSlash base.text <;> simp

theorem text_join (hb : base.text ≠ "") (h : IsName rest) :
    (base / rest).text = base.text ++ (if endsInSlash base.text then "" else "/") ++ rest :=
  text_join_of_relative hb (startsAtRoot_of_isName h)

theorem endsInSlash_append {s : String} (h : IsName rest) : endsInSlash (s ++ rest) = false := by
  have hne : rest.toList ≠ [] := by simpa using h.1
  have hl : rest.toList.getLast hne ≠ '/' := fun hs ↦ h.2 (hs ▸ List.getLast_mem hne)
  simp only [endsInSlash, String.toList_append, List.getLast?_append,
    List.getLast?_eq_some_getLast hne, Option.some_or]
  simpa using hl

theorem endsInSlash_join (hb : base.text ≠ "") (h : IsName rest) :
    endsInSlash (base / rest).text = false := by
  rw [text_join hb h]
  exact endsInSlash_append h

theorem names_join_of_relative (hb : base.text ≠ "") (h : startsAtRoot rest = false) :
    (base / rest).names = base.names ++ (Path.mk rest).names := by
  rw [names_eq, names_eq, names_eq, text_join_of_relative hb h]
  by_cases hs : endsInSlash base.text
  · obtain ⟨cs, hcs⟩ : ∃ cs, base.text.toList = cs ++ ['/'] := by
      have hl : base.text.toList.getLast? = some '/' := by simpa [endsInSlash] using hs
      exact List.getLast?_eq_some_iff.1 hl
    have hbase : pieces (cs ++ '/' :: []) = pieces cs := by
      rw [pieces_append]
      simp [pieces]
    have ht : (base.text ++ "" ++ rest).toList = cs ++ '/' :: rest.toList := by
      simp [hcs]
    rw [if_pos hs, ht, pieces_append, List.map_append, hcs, hbase]
  · have ht : (base.text ++ "/" ++ rest).toList = base.text.toList ++ '/' :: rest.toList := by
      simp
    rw [if_neg hs, ht, pieces_append, List.map_append]

theorem names_join (hb : base.text ≠ "") (h : IsName rest) :
    (base / rest).names = base.names ++ [rest] := by
  have hr : (Path.mk rest).names = [rest] := by
    rw [names_eq, pieces_of_isName h]
    simp
  rw [names_join_of_relative hb (startsAtRoot_of_isName h), hr]

theorem text_join_ne_empty (hb : base.text ≠ "") (h : IsName rest) : (base / rest).text ≠ "" := by
  rw [text_join hb h]
  simp [h.1]

theorem isAbsolute_join (hb : base.text ≠ "") (h : IsName rest) :
    (base / rest).isAbsolute = base.isAbsolute := by
  have hne : base.text.toList ≠ [] := by simpa using hb
  obtain ⟨c, cs, hc⟩ := List.exists_cons_of_ne_nil hne
  simp [isAbsolute, startsAtRoot, text_join hb h, hc]

theorem steps_eq_names (h : endsInSlash p.text = false) : p.steps = p.names := by simp [steps, h]

/-- The path of names one below the other. -/
def down (base : Path) (ns : List String) : Path := ns.foldl (· / ·) base

theorem text_down_ne_empty (hb : base.text ≠ "") (hns : ∀ n ∈ ns, IsName n) :
    (base.down ns).text ≠ "" := by
  induction ns generalizing base with
  | nil => exact hb
  | cons n ns ih =>
    obtain ⟨hn, hns⟩ := List.forall_mem_cons.1 hns
    exact ih (text_join_ne_empty hb hn) hns

theorem names_down (hb : base.text ≠ "") (hns : ∀ n ∈ ns, IsName n) :
    (base.down ns).names = base.names ++ ns := by
  induction ns generalizing base with
  | nil => exact (List.append_nil _).symm
  | cons n ns ih =>
    obtain ⟨hn, hns⟩ := List.forall_mem_cons.1 hns
    have h := ih (text_join_ne_empty hb hn) hns
    rwa [names_join hb hn, List.append_assoc] at h

theorem isAbsolute_down (hb : base.text ≠ "") (hns : ∀ n ∈ ns, IsName n) :
    (base.down ns).isAbsolute = base.isAbsolute := by
  induction ns generalizing base with
  | nil => rfl
  | cons n ns ih =>
    obtain ⟨hn, hns⟩ := List.forall_mem_cons.1 hns
    exact (ih (text_join_ne_empty hb hn) hns).trans (isAbsolute_join hb hn)

theorem endsInSlash_down (hb : base.text ≠ "") (hns : ∀ n ∈ ns, IsName n) (hne : ns ≠ []) :
    endsInSlash (base.down ns).text = false := by
  induction ns generalizing base with
  | nil => exact absurd rfl hne
  | cons n ns ih =>
    obtain ⟨hn, hns⟩ := List.forall_mem_cons.1 hns
    cases ns with
    | nil => exact endsInSlash_join hb hn
    | cons m ns => exact ih (text_join_ne_empty hb hn) hns (by simp)

theorem down_ne_empty (base : Path) (hns : ∀ n ∈ ns, IsName n) (hne : ns ≠ []) :
    (base.down ns).text ≠ "" := by
  obtain ⟨n, ns, rfl⟩ := List.exists_cons_of_ne_nil hne
  obtain ⟨hn, hns⟩ := List.forall_mem_cons.1 hns
  change ((base / n).down ns).text ≠ ""
  exact text_down_ne_empty (join_ne_empty base (startsAtRoot_of_isName hn) hn.1) hns

theorem mem_down_iff {c : Char} (hc : c ≠ '/') (hns : ∀ n ∈ ns, IsName n) :
    c ∈ (base.down ns).text.toList ↔ c ∈ base.text.toList ∨ ∃ n ∈ ns, c ∈ n.toList := by
  induction ns generalizing base with
  | nil => simp [down]
  | cons n ns ih =>
    obtain ⟨hn, hns⟩ := List.forall_mem_cons.1 hns
    change c ∈ ((base / n).down ns).text.toList ↔ _
    rw [ih hns, mem_join_iff base (startsAtRoot_of_isName hn) hc]
    simp [or_assoc]

/-- The number of bytes of some names, with a slash for each. -/
def width (ns : List String) : Nat := (ns.map (·.utf8ByteSize + 1)).sum

@[simp]
theorem width_cons (n : String) (ns : List String) :
    width (n :: ns) = n.utf8ByteSize + 1 + width ns := by simp [width]

theorem width_le_of_sublist {ms : List String} (h : ms.Sublist ns) : width ms ≤ width ns := by
  induction h with
  | slnil => exact le_rfl
  | cons n _ ih =>
    rw [width_cons]
    omega
  | cons_cons n _ ih =>
    rw [width_cons, width_cons]
    omega

theorem size_down (hb : base.text ≠ "") (hns : ∀ n ∈ ns, IsName n) (hne : ns ≠ []) :
    (base.down ns).text.utf8ByteSize + (if endsInSlash base.text then 1 else 0) =
      base.text.utf8ByteSize + width ns := by
  induction ns generalizing base with
  | nil => exact absurd rfl hne
  | cons n ns ih =>
    obtain ⟨hn, hns⟩ := List.forall_mem_cons.1 hns
    have hj : (base / n).text.utf8ByteSize + (if endsInSlash base.text then 1 else 0) =
        base.text.utf8ByteSize + (n.utf8ByteSize + 1) := by
      rw [text_join hb hn, String.utf8ByteSize_append, String.utf8ByteSize_append]
      split
      · simp
        omega
      · have hs : "/".utf8ByteSize = 1 := rfl
        omega
    cases ns with
    | nil => simpa [down, width] using hj
    | cons m ns =>
      have h := ih (text_join_ne_empty hb hn) hns (by simp)
      rw [endsInSlash_join hb hn] at h
      -- Behind a first name the base ends in no slash, so one is added before each further name.
      change ((base / n).down (m :: ns)).text.utf8ByteSize + _ = _
      rw [width_cons]
      simp only [Bool.false_eq_true, if_false] at h
      omega

theorem width_splitOn (cs : List Char) :
    width ((cs.splitOn '/').map .ofList) = (String.ofList cs).utf8ByteSize + 1 := by
  induction cs with
  | nil => rfl
  | cons c cs ih =>
    obtain ⟨x, xs, hx⟩ := List.exists_cons_of_ne_nil (List.splitOn_ne_nil '/' cs)
    rw [List.splitOn_cons_eq_if_modifyHead, String.ofList_cons, String.utf8ByteSize_append,
      String.utf8ByteSize_singleton]
    by_cases hc : c = '/'
    · have h1 : '/'.utf8Size = 1 := rfl
      simp [hc, ih, h1]
      omega
    · simp only [beq_iff_eq, hc, if_false, hx, List.modifyHead_cons, List.map_cons, width_cons,
        String.ofList_cons, String.utf8ByteSize_append, String.utf8ByteSize_singleton] at ih ⊢
      omega

theorem width_pieces_le (cs : List Char) :
    width ((pieces cs).map .ofList) ≤ (String.ofList cs).utf8ByteSize + 1 := by
  have hf : (pieces cs).map String.ofList =
      ((cs.splitOn '/').map .ofList).filter (fun s ↦ s.toList ≠ []) := by
    rw [pieces, List.filter_map]
    congr 2
    funext s
    simp
  rw [hf, ← width_splitOn]
  exact width_le_of_sublist List.filter_sublist

theorem width_names_le (p : Path) :
    width p.names + (if p.isAbsolute then 1 else 0) ≤ p.text.utf8ByteSize + 1 := by
  have hp : String.ofList p.text.toList = p.text := by simp
  by_cases ha : p.isAbsolute
  · obtain ⟨cs, hcs⟩ : ∃ cs, p.text.toList = '/' :: cs := by
      cases hc : p.text.toList with
      | nil => simp [isAbsolute, startsAtRoot, hc] at ha
      | cons c cs =>
        obtain rfl : c = '/' := by simpa [isAbsolute, startsAtRoot, hc] using ha
        exact ⟨cs, rfl⟩
    have hpieces : pieces ('/' :: cs) = pieces cs := pieces_append [] cs
    have hsize : p.text.utf8ByteSize = 1 + (String.ofList cs).utf8ByteSize := by
      rw [← hp, hcs, String.ofList_cons, String.utf8ByteSize_append]
      rfl
    have hle := width_pieces_le cs
    rw [names_eq, hcs, hpieces, if_pos ha, hsize]
    omega
  · have hle := width_pieces_le p.text.toList
    rw [hp] at hle
    rw [names_eq, if_neg ha]
    omega

theorem isName_of_mem_names {n : String} (h : n ∈ p.names) : IsName n := by
  obtain ⟨w, hw, rfl⟩ := List.mem_map.1 h
  obtain ⟨hs, hne⟩ := List.mem_filter.1 hw
  refine ⟨?_, ?_⟩
  · simpa using hne
  · simpa using Text.not_mem_of_mem_splitOn hs

theorem pieces_intercalate (hns : ∀ n ∈ ns, IsName n) (hne : ns ≠ []) :
    pieces ("/".intercalate ns).toList = ns.map String.toList := by
  have hs : ∀ cs ∈ ns.map String.toList, '/' ∉ cs := by
    intro cs hcs
    obtain ⟨n, hn, rfl⟩ := List.mem_map.1 hcs
    exact (hns n hn).2
  have hf : ∀ cs ∈ ns.map String.toList, (decide (cs ≠ [])) = true := by
    intro cs hcs
    obtain ⟨n, hn, rfl⟩ := List.mem_map.1 hcs
    simpa using (hns n hn).1
  rw [pieces, String.toList_intercalate]
  change (List.splitOn '/' (['/'].intercalate _)).filter _ = _
  rw [List.splitOn_intercalate '/' hs (by simpa using hne), List.filter_eq_self.2 hf]

theorem names_withNames (hns : ∀ n ∈ ns, IsName n) (hne : ns ≠ []) :
    (p.withNames ns).names = ns := by
  have hp : pieces (p.withNames ns).text.toList = pieces ("/".intercalate ns).toList := by
    rw [withNames]
    cases p.isAbsolute
    · simp
    · simp only [if_true, String.toList_append]
      exact pieces_append [] _
  rw [names_eq, hp, pieces_intercalate hns hne, List.map_map]
  simp [Function.comp_def]

theorem exists_intercalate_eq_append (hne : ns ≠ []) :
    ∃ s, ∃ n ∈ ns, "/".intercalate ns = s ++ n := by
  induction ns with
  | nil => exact absurd rfl hne
  | cons n ns ih =>
    cases ns with
    | nil => exact ⟨"", n, by simp, by simp⟩
    | cons m ns =>
      obtain ⟨s, l, hl, hs⟩ := ih (by simp)
      refine ⟨n ++ "/" ++ s, l, List.mem_cons_of_mem _ hl, ?_⟩
      rw [String.intercalate_cons_cons, hs]
      simp only [String.append_assoc]

theorem endsInSlash_withNames (hns : ∀ n ∈ ns, IsName n) (hne : ns ≠ []) :
    endsInSlash (p.withNames ns).text = false := by
  obtain ⟨s, n, hn, hs⟩ := exists_intercalate_eq_append hne
  simp only [withNames]
  rw [hs, ← String.append_assoc]
  exact endsInSlash_append (hns n hn)

theorem isAbsolute_withNames (hns : ∀ n ∈ ns, IsName n) (hne : ns ≠ []) :
    (p.withNames ns).isAbsolute = p.isAbsolute := by
  obtain ⟨n, ns, rfl⟩ := List.exists_cons_of_ne_nil hne
  have hn : IsName n := hns n List.mem_cons_self
  rw [withNames]
  cases p.isAbsolute with
  | true => simp [isAbsolute, startsAtRoot]
  | false =>
    obtain ⟨s, hs⟩ : ∃ s, "/".intercalate (n :: ns) = n ++ s := by
      cases ns with
      | nil => exact ⟨"", by simp⟩
      | cons m ns =>
        refine ⟨"/" ++ "/".intercalate (m :: ns), ?_⟩
        rw [String.intercalate_cons_cons, String.append_assoc]
    have hne : n.toList ≠ [] := by simpa using hn.1
    have hstart := startsAtRoot_of_isName hn
    simp only [startsAtRoot] at hstart
    simp [isAbsolute, startsAtRoot, hs, List.head?_append_of_ne_nil _ hne, hstart]

theorem size_withNames (hne : ns ≠ []) :
    (p.withNames ns).text.utf8ByteSize + 1 = width ns + (if p.isAbsolute then 1 else 0) := by
  have hw : ("/".intercalate ns).utf8ByteSize + 1 = width ns := by
    induction ns with
    | nil => exact absurd rfl hne
    | cons n ns ih =>
      cases ns with
      | nil => simp [width]
      | cons m ns =>
        have h := ih (by simp)
        have h1 : "/".utf8ByteSize = 1 := rfl
        rw [String.intercalate_cons_cons, String.utf8ByteSize_append, String.utf8ByteSize_append,
          width_cons]
        omega
  have h0 : "".utf8ByteSize = 0 := rfl
  have h1 : "/".utf8ByteSize = 1 := rfl
  rw [withNames, String.utf8ByteSize_append]
  split <;> omega

theorem refusal?_eq_none :
    p.refusal? = none ↔
      '\x00' ∉ p.text.toList ∧ p.text ≠ "" ∧ p.text.utf8ByteSize ≤ FileSystem.pathLimit := by
  rw [refusal?]
  split_ifs <;> simp_all

theorem refusal?_eq_some {e : SystemError} (h : p.refusal? = some e) :
    e = .nullInPath ∨ e = .nameTooLong ∨ e = .notFound ∧ p.text = "" := by
  rw [refusal?] at h
  split_ifs at h with hnull hempty hsize
  · exact .inl (Option.some.inj h).symm
  · exact .inr (.inr ⟨(Option.some.inj h).symm, by simpa using hempty⟩)
  · exact .inr (.inl (Option.some.inj h).symm)

theorem exists_mem_names {c : Char} (hc : c ≠ '/') :
    (∃ n ∈ p.names, c ∈ n.toList) ↔ c ∈ p.text.toList := by
  have hflatten : (pieces p.text.toList).flatten = p.text.toList.filter (fun d ↦ !(d == '/')) := by
    rw [pieces, List.splitOn_eq_splitOnP, ← Text.flatten_splitOnP]
    exact List.flatten_filter_ne_nil
  simp only [names_eq, List.mem_map, exists_exists_and_eq_and, String.toList_ofList]
  rw [← List.mem_flatten, hflatten]
  simp [hc]

/-- A path of some of the names of `p` can be walked if `p` can. -/
theorem refusal?_withNames (h : p.refusal? = none) (hns : ns.Sublist p.names) (hne : ns ≠ []) :
    (p.withNames ns).refusal? = none := by
  obtain ⟨hnull, -, hsize⟩ := refusal?_eq_none.1 h
  have hnames : (p.withNames ns).names = ns :=
    names_withNames (fun n hn ↦ isName_of_mem_names (hns.subset hn)) hne
  refine refusal?_eq_none.2 ⟨fun hc ↦ ?_, fun he ↦ ?_, ?_⟩
  · obtain ⟨n, hn, hc⟩ := (exists_mem_names (by decide)).2 hc
    exact hnull ((exists_mem_names (by decide)).1 ⟨n, hns.subset (hnames ▸ hn), hc⟩)
  · rw [names_eq, he] at hnames
    exact hne hnames.symm
  · have hwidth := width_names_le p
    have hsize' := size_withNames (p := p) hne
    have hle := width_le_of_sublist hns
    omega

/-- The names but for dots, which do not lead anywhere else. -/
def plain (ns : List String) : List String := ns.filter (· ≠ ".")

theorem plain_append (ms ns : List String) : plain (ms ++ ns) = plain ms ++ plain ns :=
  List.filter_append ..

theorem dot_not_mem_plain (ns : List String) : "." ∉ plain ns := by simp [plain]

theorem plain_of_not_mem (h : "." ∉ ns) : plain ns = ns := by
  refine List.filter_eq_self.2 fun n hn ↦ ?_
  have hne : n ≠ "." := fun he ↦ h (he ▸ hn)
  simpa using hne

theorem plain_eq_nil_iff (h : ns.getLast? ≠ some ".") : plain ns = [] ↔ ns = [] := by
  refine ⟨fun hnil ↦ ?_, fun hnil ↦ by rw [hnil]; rfl⟩
  cases hlast : ns.getLast? with
  | none => exact List.getLast?_eq_none_iff.1 hlast
  | some n =>
    have hne : n ≠ "." := fun he ↦ h (he ▸ hlast)
    have hmem : n ∈ plain ns := List.mem_filter.2 ⟨List.mem_of_getLast? hlast, by simpa using hne⟩
    rw [hnil] at hmem
    cases hmem

theorem exists_parts_eq (p : Path) : ∃ ds, p.parts = ds ++ plain p.names ∧ plain ds = [] := by
  rw [parts]
  split
  · exact ⟨["."], rfl, rfl⟩
  · exact ⟨[], rfl, rfl⟩

theorem parts_sublist (p : Path) : p.parts.Sublist p.names := by
  rw [parts]
  split
  · next h =>
    rw [Bool.and_eq_true, beq_iff_eq] at h
    obtain ⟨ns, hns⟩ := List.head?_eq_some_iff.1 h.2
    have hplain : p.names.filter (· ≠ ".") = ns.filter (· ≠ ".") := by simp [hns]
    rw [hplain, hns]
    exact List.filter_sublist.cons_cons "."
  · exact List.filter_sublist

/-- `p` goes on from `root` with the names `ns`, not counting dots, and can be walked. -/
structure IsBelow (p root : Path) (ns : List String) : Prop where
  accepted : p.refusal? = none
  absolute : p.isAbsolute = root.isAbsolute
  steps : p.steps = p.names
  names : plain p.names = plain root.names ++ ns
  last : p.names.getLast? ≠ some "."

theorem IsBelow.of_names_eq (haccepted : p.refusal? = none)
    (habsolute : p.isAbsolute = base.isAbsolute) (hsteps : p.steps = p.names)
    (hnames : p.names = base.names ++ ns) (hdot : "." ∉ ns) (hne : ns ≠ []) :
    p.IsBelow base ns := by
  refine ⟨haccepted, habsolute, hsteps, ?_, fun hlast ↦ ?_⟩
  · rw [hnames, plain_append, plain_of_not_mem hdot]
  · rw [hnames, List.getLast?_append_of_ne_nil _ hne] at hlast
    exact hdot (List.mem_of_getLast? hlast)

theorem isBelow_down_of_empty (hb : base.text = "") (hns : ∀ n ∈ ns, IsName n) (hdot : "." ∉ ns)
    (hne : ns ≠ []) (h : (base.down ns).refusal? = none) : (base.down ns).IsBelow base ns := by
  obtain rfl : base = ⟨""⟩ := congrArg Path.mk hb
  obtain ⟨n, ns, rfl⟩ := List.exists_cons_of_ne_nil hne
  obtain ⟨hn, hns⟩ := List.forall_mem_cons.1 hns
  have hdown : (Path.mk "").down (n :: ns) = (Path.mk n).down ns := by
    have hjoin : Path.mk "" / n = ⟨n⟩ := by
      change join _ _ = _
      rw [join, startsAtRoot_of_isName hn]
      simp
    rw [down, List.foldl_cons, hjoin]
    rfl
  have hnames : (Path.mk n).names = [n] := by
    rw [names_eq, pieces_of_isName hn]
    simp
  rw [hdown] at h ⊢
  refine .of_names_eq h ?_ ?_ ?_ hdot hne
  · rw [isAbsolute_down hn.1 hns]
    exact startsAtRoot_of_isName hn
  · apply steps_eq_names
    by_cases hnil : ns = []
    · subst hnil
      have hend := endsInSlash_append (s := "") hn
      rwa [String.empty_append] at hend
    · exact endsInSlash_down hn.1 hns hnil
  · rw [names_down hn.1 hns, hnames]
    rfl

theorem isBelow_down (hns : ∀ n ∈ ns, IsName n) (hdot : "." ∉ ns) (hne : ns ≠ [])
    (h : (base.down ns).refusal? = none) : (base.down ns).IsBelow base ns := by
  by_cases hb : base.text = ""
  · exact isBelow_down_of_empty hb hns hdot hne h
  · exact .of_names_eq h (isAbsolute_down hb hns) (steps_eq_names (endsInSlash_down hb hns hne))
      (names_down hb hns) hdot hne

theorem withNames_beginning {ms us : List String} (h : p.names = ms ++ us) :
    (p.withNames ms).names = ms ∧ (p.withNames ms).isAbsolute = p.isAbsolute := by
  by_cases hm : ms = []
  · subst hm
    rw [withNames]
    cases p.isAbsolute <;> exact ⟨rfl, rfl⟩
  · have hall : ∀ n ∈ ms, IsName n :=
      fun n hn ↦ isName_of_mem_names (h ▸ List.mem_append_left us hn)
    exact ⟨names_withNames hall hm, isAbsolute_withNames hall hm⟩

namespace IsBelow

variable {root : Path} {ds ms us : List String}

/-- A path below `root` goes on from what the first names of `root` lead to. -/
theorem of_beginning (h : p.IsBelow root ns) (hroot : root.names = ms ++ us) :
    p.IsBelow (root.withNames ms) (plain us ++ ns) := by
  obtain ⟨hnames, habsolute⟩ := withNames_beginning hroot
  refine ⟨h.accepted, h.absolute.trans habsolute.symm, h.steps, ?_, h.last⟩
  rw [h.names, hroot, hnames, plain_append, List.append_assoc]

theorem dot_not_mem (h : p.IsBelow root ns) : "." ∉ ns := by
  have hdot := dot_not_mem_plain p.names
  rw [h.names] at hdot
  exact fun hmem ↦ hdot (List.mem_append_right _ hmem)

theorem exists_parts_eq (h : p.IsBelow root ns) :
    ∃ ds, p.parts = ds ++ ns ∧ plain ds = plain root.names := by
  obtain ⟨ds, hparts, hds⟩ := Path.exists_parts_eq p
  refine ⟨ds ++ plain root.names, ?_, ?_⟩
  · rw [hparts, h.names, List.append_assoc]
  · rw [plain_append, hds, plain_of_not_mem (dot_not_mem_plain _), List.nil_append]

theorem withNames (h : p.IsBelow root (ns ++ ms)) (hp : p.parts = ds ++ (ns ++ ms))
    (hds : plain ds = plain root.names) (hne : ns ≠ []) :
    (p.withNames (ds ++ ns)).IsBelow root ns := by
  have hsub : (ds ++ ns).Sublist p.names := by
    apply List.Sublist.trans _ p.parts_sublist
    rw [hp, ← List.append_assoc]
    exact List.sublist_append_left ..
  have hall : ∀ n ∈ ds ++ ns, IsName n := fun n hn ↦ isName_of_mem_names (hsub.subset hn)
  have hne' : ds ++ ns ≠ [] := by simp [hne]
  have hnames := names_withNames (p := p) hall hne'
  have hdot : "." ∉ ns := fun hmem ↦ h.dot_not_mem (List.mem_append_left _ hmem)
  refine ⟨refusal?_withNames h.accepted hsub hne', ?_,
    steps_eq_names (endsInSlash_withNames hall hne'), ?_, fun hlast ↦ ?_⟩
  · rw [isAbsolute_withNames hall hne', h.absolute]
  · rw [hnames, plain_append, hds, plain_of_not_mem hdot]
  · rw [hnames, List.getLast?_append_of_ne_nil _ hne] at hlast
    exact hdot (List.mem_of_getLast? hlast)

end IsBelow

theorem climb_eq {ms : List String} {n : String} (h : p.parts = ms ++ [n]) :
    p.climb = p :: (beginnings ms.reverse).map p.withNames := by
  simp [climb, h, beginnings]

theorem beginnings_reverse_append (ms : List String) (m : String) :
    beginnings (ms ++ [m]).reverse = (ms ++ [m]) :: beginnings ms.reverse := by
  simp [beginnings]

end BootMedia.Path
