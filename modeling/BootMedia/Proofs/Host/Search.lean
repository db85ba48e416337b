import BootMedia.Host.Loader
import BootMedia.Host.Search
import BootMedia.Proofs.FileSystem.Walk
import BootMedia.Proofs.Text.Octets

namespace BootMedia

namespace FileSystem

variable {fs fs' : FileSystem} {p q : Path} {purpose : Purpose}

theorem walkWith_congr (h : fs'.nodes = fs.nodes)
    (through : Inode → List String → Except SystemError Place) (i : Inode) (names : List String) :
    fs'.walkWith purpose through i names = fs.walkWith purpose through i names := by
  induction names generalizing i with
  | nil => rfl
  | cons name rest ih => simp only [walkWith, node?, h, ih]

theorem walk_congr (h : fs'.nodes = fs.nodes) (n : Nat) :
    fs'.walk purpose n = fs.walk purpose n := by
  induction n with
  | zero =>
    funext i names
    exact walkWith_congr h _ i names
  | succ n ih =>
    funext i names
    rw [walk, walk, ih, walkWith_congr h]

theorem resolve_congr (h : fs'.nodes = fs.nodes) (hsteps : p.steps = q.steps)
    (horigin : origin p fs'.here = origin q fs.here) (hp : p.refusal? = none)
    (hq : q.refusal? = none) : fs'.resolve p = fs.resolve q := by
  simp only [resolve, locate, locateSteps, hp, hq, hsteps, horigin, walk_congr h]

theorem isExecutable_iff :
    fs.isExecutable p ↔ ∃ i f, fs.resolve p = .ok i ∧ fs.fileAt? i = some f ∧ f.isExecutable := by
  rw [isExecutable, file?]
  cases fs.resolve p with
  | error e => simp [Except.toOption]
  | ok i => cases h : fs.fileAt? i <;> simp [Except.toOption, h]

theorem isExecutable_congr (h : fs'.nodes = fs.nodes) (hresolve : fs'.resolve p = fs.resolve q) :
    fs'.isExecutable p = fs.isExecutable q := by
  have hfileAt : fs'.fileAt? = fs.fileAt? := by
    funext i
    rw [fileAt?, fileAt?, node?, node?, h]
  rw [isExecutable, isExecutable, file?, file?, hresolve, hfileAt]

end FileSystem

theorem pathOf_ofText (s : String) : pathOf (Text.Octets.ofText s) = ⟨s⟩ := by
  rw [pathOf, Text.Octets.toText_ofText]

namespace Host

open FileSystem Text.Octets

section PathIn

variable {entry program : String} (hname : Path.IsName program)
include hname

theorem text_pathIn (entry : String) :
    pathIn entry program = (Path.mk entry / program).text ∨
      entry ≠ "" ∧ Path.endsInSlash entry ∧ pathIn entry program = entry ++ "/" ++ program := by
  by_cases he : entry = ""
  · left
    subst he
    change program = (Path.join ⟨""⟩ program).text
    rw [Path.join, Path.startsAtRoot_of_isName hname]
    simp
  · have hp : pathIn entry program = entry ++ "/" ++ program := by simp [pathIn, he]
    have htext : (Path.mk entry / program).text =
        entry ++ (if Path.endsInSlash entry then "" else "/") ++ program :=
      Path.text_join he hname
    by_cases hs : Path.endsInSlash entry
    · exact .inr ⟨he, hs, hp⟩
    · left
      rw [hp, htext, if_neg hs]

theorem steps_pathIn (entry : String) :
    (Path.mk (pathIn entry program)).steps = (Path.mk entry / program).steps := by
  rcases text_pathIn hname entry with h | ⟨hne, -, h⟩
  · rw [h]
  · have hslash : Path.endsInSlash (entry ++ "/" ++ program) = false :=
      Path.endsInSlash_append hname
    have hslash' : Path.endsInSlash (Path.mk entry / program).text = false :=
      Path.endsInSlash_join hne hname
    have hnames : (Path.mk (entry ++ "/" ++ program)).names =
        (Path.mk entry).names ++ [program] := by
      have ht : (entry ++ "/" ++ program).toList = entry.toList ++ '/' :: program.toList := by simp
      rw [Path.names_eq, ht, Path.pieces_append, Path.pieces_of_isName hname, List.map_append]
      simp [Path.names_eq]
    rw [h, Path.steps_eq_names hslash, Path.steps_eq_names hslash', hnames,
      Path.names_join hne hname]

theorem isAbsolute_pathIn (entry : String) :
    (Path.mk (pathIn entry program)).isAbsolute = Path.startsAtRoot entry := by
  have hstart := Path.startsAtRoot_of_isName hname
  by_cases he : entry = ""
  · subst he
    exact hstart
  · have hne : entry.toList ≠ [] := by simpa using he
    obtain ⟨c, cs, hc⟩ := List.exists_cons_of_ne_nil hne
    simp [Path.isAbsolute, Path.startsAtRoot, pathIn, he, hc]

theorem isAbsolute_join (entry : String) :
    (Path.mk entry / program).isAbsolute = Path.startsAtRoot entry := by
  rcases text_pathIn hname entry with h | ⟨hne, -, -⟩
  · rw [← isAbsolute_pathIn hname, h]
  · exact Path.isAbsolute_join hne hname

theorem refusal?_join (h : (Path.mk (pathIn entry program)).refusal? = none) :
    (Path.mk entry / program).refusal? = none := by
  rcases text_pathIn hname entry with he | ⟨hne, hs, he⟩
  · rwa [he] at h
  · have htext : (Path.mk entry / program).text = entry ++ "" ++ program := by
      rw [Path.text_join hne hname, if_pos hs]
    obtain ⟨hnull, -, hsize⟩ := Path.refusal?_eq_none.1 h
    rw [he] at hnull hsize
    refine Path.refusal?_eq_none.2 ⟨?_, ?_, ?_⟩
    · simp only [htext, String.toList_append, List.mem_append, not_or] at hnull ⊢
      exact ⟨⟨hnull.1.1, by simp⟩, hnull.2⟩
    · simp [htext, hname.1]
    · have hempty : "".utf8ByteSize = 0 := rfl
      simp only [htext, String.utf8ByteSize_append] at hsize ⊢
      omega

/-- What is tried for an entry is what the entry means, where both begin in one directory. -/
theorem resolve_pathIn {fs fs' : FileSystem} (h : fs'.nodes = fs.nodes)
    (hhere : Path.startsAtRoot entry ∨ fs'.here = fs.here)
    (haccepted : (Path.mk (pathIn entry program)).refusal? = none) :
    fs'.resolve ⟨pathIn entry program⟩ = fs.resolve (Path.mk entry / program) := by
  have horigin : origin ⟨pathIn entry program⟩ fs'.here =
      origin (Path.mk entry / program) fs.here := by
    rw [origin, origin, isAbsolute_pathIn hname, isAbsolute_join hname]
    rcases hhere with hroot | hhere
    · rw [if_pos hroot, if_pos hroot]
    · rw [hhere]
  exact resolve_congr h (steps_pathIn hname entry) horigin haccepted (refusal?_join hname haccepted)

end PathIn

variable {α : Type} {start : String → Except SystemError α} {a : α} {entry program sp : String}
  {before after ps : List String} {limit : Nat}

def IsPassed (e : SystemError) : Prop := e = .accessDenied ∨ e = .notFound ∨ e = .notDirectory

theorem firstStarted_of_passed (worst : SystemError) {p : String} (rest : List String)
    (hps : ∀ q ∈ ps, ∃ e, start q = .error e ∧ IsPassed e) (hp : start p = .ok a) :
    firstStarted start worst (ps ++ p :: rest) = .ok a := by
  -- What is passed over may change the error that would be reported, but not what is started.
  induction ps generalizing worst with
  | nil => rw [List.nil_append, firstStarted, hp]
  | cons q ps ih =>
    obtain ⟨⟨e, hq, he⟩, hps⟩ := List.forall_mem_cons.1 hps
    rw [List.cons_append, firstStarted, hq]
    rcases he with rfl | rfl | rfl <;> exact ih _ hps

theorem pathsIn_cons (program : String) (h : entry.length < limit) (after : List String) :
    ∃ rest, pathsIn limit program (entry :: after) = pathIn entry program :: rest ∧
      (after ≠ [] → rest = pathsIn limit program after) := by
  cases after with
  | nil => exact ⟨[], by simp [pathsIn, h]⟩
  | cons d after => exact ⟨_, by simp [pathsIn, h], fun _ ↦ rfl⟩

theorem pathsIn_append (program : String) (after : List String)
    (h : ∀ d ∈ before ++ [entry], d.length < limit) :
    ∃ rest, pathsIn limit program (before ++ entry :: after) =
      before.map (pathIn · program) ++ pathIn entry program :: rest := by
  induction before with
  | nil =>
    obtain ⟨rest, hrest, -⟩ := pathsIn_cons program (h entry (by simp)) after
    exact ⟨rest, hrest⟩
  | cons d before ih =>
    obtain ⟨hd, h⟩ := List.forall_mem_cons.1 h
    obtain ⟨rest, ih⟩ := ih h
    obtain ⟨rest', hrest, hafter⟩ := pathsIn_cons program hd (before ++ entry :: after)
    rw [hafter (by simp), ih] at hrest
    exact ⟨rest, hrest⟩

theorem length_le_of_mem_searchEntries {d : String} (h : d ∈ searchEntries sp) :
    d.length ≤ sp.length := by
  obtain ⟨w, hw, rfl⟩ := List.mem_map.1 h
  have hle := Text.length_le_of_mem_splitOn hw
  rwa [← String.length_toList, String.toList_ofList, ← String.length_toList]

theorem searchEntries_ofText (sp : String) :
    searchEntries (ofText sp) = (searchEntries sp).map ofText := by
  rw [searchEntries, toList_ofText, splitOn_flatMap_octets (by decide), searchEntries, List.map_map,
    List.map_map]
  apply List.map_congr_left
  intro w _
  apply String.toList_injective
  simp [toList_ofText]

theorem pathIn_ofText (entry program : String) :
    pathIn (ofText entry) (ofText program) = ofText (pathIn entry program) := by
  have hslash : ofText "/" = "/" := ofText_of_ascii rfl
  by_cases he : entry = ""
  · have hempty : ofText "" = "" := ofText_of_ascii rfl
    rw [he, hempty]
    rfl
  · have hne := ofText_ne_empty he
    simp only [pathIn, String.isEmpty_iff, he, hne, if_false, ofText_append, hslash]

theorem size_le_size_pathIn (entry program : String) :
    entry.utf8ByteSize ≤ (pathIn entry program).utf8ByteSize := by
  rw [pathIn]
  split
  · next h => simp [String.isEmpty_iff.1 h]
  · simp only [String.utf8ByteSize_append]
    omega

/-- An entry whose path is not too long is not cut off for its own length. -/
theorem length_ofText_lt_limit {d : String} (h : d ∈ searchEntries sp)
    (hsize : (pathIn d program).utf8ByteSize ≤ pathLimit) :
    (ofText d).length < min (ofText sp).length pathLimit + 1 := by
  have hle := length_le_of_mem_searchEntries
    (searchEntries_ofText sp ▸ List.mem_map_of_mem (f := ofText) h)
  have hd := (size_le_size_pathIn d program).trans hsize
  rw [length_ofText] at hle ⊢
  omega

/-- The search of the system comes to an entry if it passes over those before. -/
theorem startFound_of_passed (hname : Path.IsName program)
    (hlength : program.utf8ByteSize ≤ nameLimit)
    (hentries : searchEntries sp = before ++ entry :: after)
    (hsize : ∀ d ∈ before ++ [entry], (pathIn d program).utf8ByteSize ≤ pathLimit)
    (hpassed : ∀ d ∈ before, ∃ e, start (ofText (pathIn d program)) = .error e ∧ IsPassed e)
    (hstart : start (ofText (pathIn entry program)) = .ok a) :
    startFound start (some (ofText sp)) (ofText program) = .ok a := by
  have hshort : isOverlong (ofText program) = false := by
    simp [isOverlong, length_ofText, Nat.not_lt.2 hlength]
  have hslash : '/' ∉ (ofText program).toList := (mem_ofText_iff (by decide)).not.2 hname.2
  have hne := ofText_ne_empty hname.1
  have hpaths : paths (ofText sp) (ofText program) =
      pathsIn (min (ofText sp).length pathLimit + 1) (ofText program)
        (before.map ofText ++ ofText entry :: after.map ofText) := by
    rw [paths, searchEntries_ofText, hentries]
    simp [hne, hslash]
  have hlimit : ∀ d ∈ before.map ofText ++ [ofText entry],
      d.length < min (ofText sp).length pathLimit + 1 := by
    intro d hd
    rw [← List.map_singleton (f := ofText), ← List.map_append] at hd
    obtain ⟨c, hc, rfl⟩ := List.mem_map.1 hd
    have hmem : c ∈ searchEntries sp := by
      rw [hentries]
      simp only [List.mem_append, List.mem_cons, List.not_mem_nil, or_false] at hc ⊢
      exact hc.imp_right .inl
    exact length_ofText_lt_limit hmem (hsize c hc)
  obtain ⟨rest, hrest⟩ := pathsIn_append (ofText program) (after.map ofText) hlimit
  rw [startFound, hshort, Option.getD_some, hpaths, hrest, List.map_map]
  refine firstStarted_of_passed .notFound rest (fun q hq ↦ ?_)
    (pathIn_ofText entry program ▸ hstart)
  obtain ⟨d, hd, rfl⟩ := List.mem_map.1 hq
  rw [Function.comp_apply, pathIn_ofText]
  exact hpassed d hd

end Host

end BootMedia
