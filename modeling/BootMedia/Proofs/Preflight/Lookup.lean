import BootMedia.Proofs.Preflight.Images
import BootMedia.Proofs.Preflight.Tool

namespace BootMedia

namespace Path

theorem startsAtRoot_eq_false {s : String} {name : List Char}
    (h : (s.toList.splitOn '/').head? = some name) (hname : name ≠ []) :
    startsAtRoot s = false := by
  cases hs : s.toList with
  | nil => simp [startsAtRoot, hs]
  | cons c cs =>
    by_cases hc : c = '/'
    · have hsplit : ('/' :: cs).splitOn '/' = [] :: cs.splitOn '/' := by
        simp [List.splitOn_cons_eq_if_modifyHead]
      rw [hs, hc, hsplit, List.head?_cons, Option.some.injEq] at h
      exact absurd h.symm hname
    · simp [startsAtRoot, hs, hc]

end Path

namespace ToolSearch

variable {entry sp sq : String} {entries : List String} {e : Environment}

theorem eq_searchEntries_iff :
    entries = searchEntries sp ↔
      entries ≠ [] ∧ (∀ d ∈ entries, ':' ∉ d.toList) ∧ ":".intercalate entries = sp := by
  constructor
  · rintro rfl
    refine ⟨by simp [searchEntries], ?_, ?_⟩
    · intro d hd
      obtain ⟨w, hw, rfl⟩ := List.mem_map.1 hd
      simpa using Text.not_mem_of_mem_splitOn hw
    · apply String.toList_injective
      rw [String.toList_intercalate, searchEntries, List.map_map]
      have hid : String.toList ∘ String.ofList = id := funext fun _ ↦ String.toList_ofList
      rw [hid, List.map_id]
      exact List.intercalate_splitOn ':'
  · rintro ⟨hne, hcolon, rfl⟩
    have hsplit : (":".intercalate entries).toList.splitOn ':' = entries.map String.toList := by
      rw [String.toList_intercalate]
      exact List.splitOn_intercalate ':' (by simpa using hcolon) (by simpa using hne)
    rw [searchEntries, hsplit]
    simp

theorem searchEntries_intercalate (hne : entries ≠ []) (h : ∀ d ∈ entries, ':' ∉ d.toList) :
    searchEntries (":".intercalate entries) = entries :=
  (eq_searchEntries_iff.2 ⟨hne, h, rfl⟩).symm

theorem colon_not_mem_searchEntries : ∀ d ∈ searchEntries sp, ':' ∉ d.toList :=
  (eq_searchEntries_iff.1 rfl).2.1

theorem searchEntries_ne_nil : searchEntries sp ≠ [] := (eq_searchEntries_iff.1 rfl).1

theorem searchEntries_append (sp sq : String) :
    searchEntries (sp ++ ":" ++ sq) = searchEntries sp ++ searchEntries sq := by
  symm
  refine eq_searchEntries_iff.2 ⟨by simp [searchEntries_ne_nil], ?_, ?_⟩
  · intro d hd
    rcases List.mem_append.1 hd with hd | hd
    · exact colon_not_mem_searchEntries d hd
    · exact colon_not_mem_searchEntries d hd
  · have hjoin : ∀ s, ":".intercalate (searchEntries s) = s :=
      fun s ↦ (eq_searchEntries_iff.1 rfl).2.2
    rw [String.intercalate_append_of_ne_nil searchEntries_ne_nil searchEntries_ne_nil, hjoin, hjoin]

theorem expand_of_home (h : (entry.toList.splitOn '/').head? = some ['~']) (home : Path) :
    expand home entry =
      ((Path.mk entry).names.tail.filter (· ≠ ".")).foldl (· / ·) home := by
  have hroot := Path.startsAtRoot_eq_false h (by decide)
  rw [expand, if_pos (by simp [hroot, h])]

theorem expand_of_not_home (h : (entry.toList.splitOn '/').head? ≠ some ['~']) (home : Path) :
    expand home entry = ⟨entry⟩ := by
  rw [expand, if_neg (by simp [h])]

theorem home_of_get? {h : String} (he : e.get? homeVariable = some h) (hne : h ≠ "")
    (account : Path) : home account e = ⟨h⟩ := by
  simp [home, he, Option.filter_some, hne]

theorem home_of_unset (h : ∀ dir, e.get? homeVariable = some dir → dir = "") (account : Path) :
    home account e = account := by
  cases he : e.get? homeVariable with
  | none => simp [home, he]
  | some dir => simp [home, he, Option.filter_some, h dir he]

end ToolSearch

namespace Preflight

open ToolSearch

variable {fs : FileSystem} {e e' : Environment} {given given' : Option String} {i : Tool}
  {account base p : Path} {sp sq : String}

/-- A regular file that may be executed stands at the path; links are followed. -/
def Qualifies (fs : FileSystem) (p : Path) : Prop := ∃ f, fs.file? p = some f ∧ f.isExecutable

theorem qualifies_iff : Qualifies fs p ↔ fs.isExecutable p := by
  rw [Qualifies, FileSystem.isExecutable]
  cases fs.file? p <;> simp

theorem found?_given (fs : FileSystem) (account : Path) (e : Environment) (sp program : String) :
    found? fs account e (some sp) program =
      (candidates (home account e) sp program).find? fs.isExecutable := rfl

theorem report_congr {t : Target} {action : Action} {l : Layout}
    (h : found? fs account e given (tool t action).program =
      found? fs account e' given' (tool t action).program) :
    report fs account e given t action l = report fs account e' given' t action l := by
  rw [report, report, toolCheck, toolCheck, h]

theorem found?_congr (he : home account e' = home account e) {program : String}
    (h : (candidates (home account e) sq program).filter fs.isExecutable =
      (candidates (home account e) sp program).filter fs.isExecutable) :
    found? fs account e' (some sq) program = found? fs account e (some sp) program := by
  rw [found?_given, found?_given, he, ← List.head?_filter, ← List.head?_filter, h]

theorem found?_of_searchPath (h : e.get? searchPathVariable = some sp) (program : String) :
    found? fs account e none program = found? fs account e (some sp) program := by
  rw [found?, found?, searchPath?, h]
  rfl

theorem found?_of_no_searchPath (h : e.get? searchPathVariable = none) (program : String) :
    found? fs account e none program = none := by
  rw [found?, searchPath?, h]
  rfl

theorem home_congr (h : ∀ k ≠ searchPathVariable, e'.get? k = e.get? k) :
    home account e' = home account e := by
  have hne : homeVariable ≠ searchPathVariable := by decide
  rw [home, home, h _ hne]

theorem expand_empty (home : Path) (t : Target) (action : Action) :
    expand home "" / (tool t action).program = ⟨(tool t action).program⟩ := by
  have hroot := Path.startsAtRoot_of_isName (isName_program t action)
  have hentry : expand home "" = ⟨""⟩ := expand_of_not_home (by decide) home
  change (expand home "").join (tool t action).program = ⟨(tool t action).program⟩
  rw [hentry, Path.join, hroot]
  simp

/-- Entries that are put in do not show if nothing qualifies in them. -/
theorem filter_candidates_insert {program : String} {before extra after : List String}
    (hsp : searchEntries sp = before ++ after)
    (h : ∀ d ∈ extra, ':' ∉ d.toList ∧ ¬Qualifies fs (expand base d / program)) :
    (candidates base (":".intercalate (before ++ extra ++ after)) program).filter fs.isExecutable =
      (candidates base sp program).filter fs.isExecutable := by
  have hcolon : ∀ d ∈ before ++ extra ++ after, ':' ∉ d.toList := by
    intro d hd
    have hcases : d ∈ before ++ after ∨ d ∈ extra := by
      simp only [List.mem_append] at hd ⊢
      tauto
    rcases hcases with hd | hd
    · exact colon_not_mem_searchEntries d (hsp ▸ hd)
    · exact (h d hd).1
  have hne : before ++ extra ++ after ≠ [] := by
    intro hnil
    obtain ⟨⟨hbefore, -⟩, hafter⟩ : (before = [] ∧ extra = []) ∧ after = [] := by
      simpa only [List.append_eq_nil_iff] using hnil
    rw [hbefore, hafter] at hsp
    exact searchEntries_ne_nil hsp
  have hextra : (extra.map fun d ↦ expand base d / program).filter fs.isExecutable = [] := by
    rw [List.filter_eq_nil_iff]
    intro c hc
    obtain ⟨d, hd, rfl⟩ := List.mem_map.1 hc
    rw [← qualifies_iff]
    exact (h d hd).2
  rw [candidates, candidates, searchEntries_intercalate hne hcolon, hsp]
  simp only [List.map_append, List.filter_append, hextra, List.append_nil]

theorem found?_append {program : String} (h : (found? fs account e (some sp) program).isSome)
    (sq : String) :
    found? fs account e (some (sp ++ ":" ++ sq)) program =
      found? fs account e (some sp) program := by
  rw [found?_given] at h ⊢
  rw [candidates, searchEntries_append, List.map_append, List.find?_append]
  exact Option.or_of_isSome h

theorem found?_eq_some_iff {program : String} :
    found? fs account e (some sp) program = some p ↔
      ∃ n : Nat, (candidates (home account e) sp program)[n]? = some p ∧ Qualifies fs p ∧
        ∀ m < n, ∀ q ∈ (candidates (home account e) sp program)[m]?, ¬Qualifies fs q := by
  simp only [found?_given, List.find?_eq_some_iff_getElem, qualifies_iff]
  constructor
  · rintro ⟨hp, n, hn, rfl, hbefore⟩
    refine ⟨n, by simp [hn], hp, fun m hm q hq ↦ ?_⟩
    obtain ⟨hlt, rfl⟩ := List.getElem?_eq_some_iff.1 hq
    simpa using hbefore m hm
  · rintro ⟨n, hn, hp, hbefore⟩
    obtain ⟨hlt, rfl⟩ := List.getElem?_eq_some_iff.1 hn
    refine ⟨hp, n, hlt, rfl, fun m hm ↦ ?_⟩
    simpa using hbefore m hm _ (List.getElem?_eq_getElem (hm.trans hlt))

theorem isSome_found?_iff {program : String} :
    (found? fs account e (some sp) program).isSome ↔
      ∃ q ∈ candidates (home account e) sp program, Qualifies fs q := by
  rw [found?_given, List.find?_isSome]
  simp only [qualifies_iff]

theorem message_toolCheck_iff {q : Path} (h : found? fs account e given i.program = some p) :
    (toolCheck fs account e given i).message = "Found at " ++ q.text ++ " (" ++ i.purpose ++ ")" ↔
      q = p := by
  have hmessage : (toolCheck fs account e given i).message =
      "Found at " ++ p.text ++ " (" ++ i.purpose ++ ")" := by
    rw [toolCheck, h]
    rfl
  rw [hmessage]
  constructor
  · intro hq
    obtain ⟨p⟩ := p
    obtain ⟨q⟩ := q
    simpa [String.append_assoc] using hq.symm
  · rintro rfl
    rfl

/-- For any file system, environment, tool of a request and search path. The entries are the pieces
between the colons, and each gives a candidate; one that begins with `~` gives it below the home
directory, which is that of the account only where the environment names none. The check passes
exactly if a candidate qualifies, and then it names the first that does; without any search path it
fails. A search path that is given takes the place of the environment's. Entries that are added
behind a check that passed change nothing, and no more do entries that are put in anywhere without a
tool in them. -/
theorem lookup_first_match (fs : FileSystem) (account : Path) (e : Environment) (t : Target)
    (action : Action) (l : Layout) (sp : String) :
    let i := tool t action
    let below (dir : Path) (entry : String) : Path :=
      ((Path.mk entry).names.tail.filter (· ≠ ".")).foldl (· / ·) dir / i.program
    let candidate (entry : String) : Path := expand (home account e) entry / i.program
    let candidates := (searchEntries sp).map candidate
    let check := toolCheck fs account e (some sp) i
    let reportIn (searchPath : String) := report fs account e (some searchPath) t action l
    (∀ entries, entries = searchEntries sp ↔
      entries ≠ [] ∧ (∀ d ∈ entries, ':' ∉ d.toList) ∧ ":".intercalate entries = sp) ∧
    (candidate "" = ⟨i.program⟩ ∧ ∀ entry,
      if (entry.toList.splitOn '/').head? = some ['~'] then
        (∀ dir, e.get? homeVariable = some dir → dir ≠ "" → candidate entry = below ⟨dir⟩ entry) ∧
        ((∀ dir, e.get? homeVariable = some dir → dir = "") →
          candidate entry = below account entry)
      else candidate entry = Path.mk entry / i.program) ∧
    (check.passed ↔ ∃ c ∈ candidates, Qualifies fs c) ∧
    (check.passed → ∃ (n : Nat) (c : Path), candidates[n]? = some c ∧ Qualifies fs c ∧
      (∀ m < n, ∀ d ∈ candidates[m]?, ¬Qualifies fs d) ∧
      ∀ q : Path, check.message = "Found at " ++ q.text ++ " (" ++ i.purpose ++ ")" ↔ q = c) ∧
    (e.get? searchPathVariable = none → (toolCheck fs account e none i).passed = false) ∧
    (∀ e' : Environment, (∀ k ≠ searchPathVariable, e'.get? k = e.get? k) →
      report fs account e' (some sp) t action l = reportIn sp) ∧
    (e.get? searchPathVariable = some sp → report fs account e none t action l = reportIn sp) ∧
    (check.passed → ∀ sq, reportIn (sp ++ ":" ++ sq) = reportIn sp) ∧
    (∀ before extra after, searchEntries sp = before ++ after →
      (∀ d ∈ extra, ':' ∉ d.toList ∧ ¬Qualifies fs (candidate d)) →
      reportIn (":".intercalate (before ++ extra ++ after)) = reportIn sp) ∧
    ∀ sq, ((searchEntries sq).map candidate).filter fs.isExecutable =
      candidates.filter fs.isExecutable → reportIn sq = reportIn sp := by
  intro i below candidate candidates check reportIn
  have hpassed : check.passed ↔ (found? fs account e (some sp) i.program).isSome := by
    rw [← toolCheck_passed]
  refine ⟨fun entries ↦ eq_searchEntries_iff, ⟨?_, fun entry ↦ ?_⟩, ?_, ?_, ?_, ?_, ?_, ?_, ?_, ?_⟩
  · exact expand_empty (home account e) t action
  · split
    · next h =>
      have hbelow : candidate entry = below (home account e) entry :=
        congrArg (· / i.program) (expand_of_home h _)
      refine ⟨fun dir hdir hne ↦ ?_, fun hunset ↦ ?_⟩
      · rw [hbelow, home_of_get? hdir hne]
      · rw [hbelow, home_of_unset hunset]
    · next h => exact congrArg (· / i.program) (expand_of_not_home h _)
  · rw [hpassed]
    exact isSome_found?_iff
  · intro h
    obtain ⟨c, hc⟩ := Option.isSome_iff_exists.1 (hpassed.1 h)
    obtain ⟨n, hn, hq, hbefore⟩ := found?_eq_some_iff.1 hc
    exact ⟨n, c, hn, hq, hbefore, fun q ↦ message_toolCheck_iff hc⟩
  · intro h
    rw [toolCheck_passed, found?_of_no_searchPath h, Option.isSome_none]
  · intro e' h
    exact report_congr (found?_congr (home_congr h) rfl)
  · intro h
    exact report_congr (found?_of_searchPath h i.program)
  · intro h sq
    exact report_congr (found?_append (hpassed.1 h) sq)
  · intro before extra after hsp h
    exact report_congr (found?_congr rfl (filter_candidates_insert hsp h))
  · intro sq h
    exact report_congr (found?_congr rfl h)

def twoTools : FileSystem where
  nodes := #[.directory 0 [("home", 1), ("opt", 3)], .directory 0 [("bin", 2)],
    .directory 1 [("cargo", 4)], .directory 0 [("cargo", 5)],
    .file ⟨"#!/bin/sh\n".toUTF8, 0o755, 5⟩, .file ⟨"".toUTF8, 0o644, 5⟩]
  here := 0
  clock := 9

def twoToolEnvironment : Environment :=
  ⟨[(homeVariable, "/home"), (searchPathVariable, "/opt:~/bin:")]⟩

theorem found?_twoTools (account : Path) :
    found? twoTools account twoToolEnvironment (some "/opt:~/bin:") "cargo" =
      some ⟨"/home/bin/cargo"⟩ := by
  have hhome : home account twoToolEnvironment = ⟨"/home"⟩ := rfl
  have hcandidates : candidates ⟨"/home"⟩ "/opt:~/bin:" "cargo" =
      [⟨"/opt/cargo"⟩, ⟨"/home/bin/cargo"⟩, ⟨"cargo"⟩] := rfl
  have hopt : twoTools.isExecutable ⟨"/opt/cargo"⟩ = false := rfl
  have hfound : twoTools.isExecutable ⟨"/home/bin/cargo"⟩ = true := rfl
  rw [found?_given, hhome, hcandidates]
  simp only [List.find?_cons, hopt, hfound]

theorem lookup_first_match_below_home :
    let t : Target := ⟨.x64, .release, ⟨⟨"/ws"⟩⟩⟩
    let e := twoToolEnvironment
    let account : Path := ⟨"/opt"⟩
    let check := toolCheck twoTools account e (some "/opt:~/bin:") (tool t .build)
    let reportIn (sp : String) := report twoTools account e (some sp) t .build t.layout
    e.get? homeVariable = some "/home" ∧
      expand (home account e) "~/bin" / "cargo" = ⟨"/home/bin/cargo"⟩ ∧
      check.passed ∧ check.message = "Found at /home/bin/cargo (Build the iron package)" ∧
      e.get? searchPathVariable = some "/opt:~/bin:" ∧
      searchEntries "/opt:~/bin:" = ["/opt"] ++ ["~/bin", ""] ∧
      (∀ d ∈ ["/home"], ':' ∉ d.toList ∧
        ¬Qualifies twoTools (expand (home account e) d / "cargo")) ∧
      report twoTools account e none t .build t.layout = reportIn "/opt:~/bin:" ∧
      reportIn ("/opt:~/bin:" ++ ":" ++ "/bin") = reportIn "/opt:~/bin:" ∧
      reportIn (":".intercalate (["/opt"] ++ ["/home"] ++ ["~/bin", ""])) =
        reportIn "/opt:~/bin:" := by
  intro t e account check reportIn
  have hhome : e.get? homeVariable = some "/home" := rfl
  have hpassed : check.passed := by
    simp only [check, toolCheck_passed]
    exact Option.isSome_iff_exists.2 ⟨_, found?_twoTools account⟩
  have hmessage : check.message = "Found at /home/bin/cargo (Build the iron package)" :=
    (message_toolCheck_iff (i := tool t .build) (found?_twoTools account)).2 rfl
  have hpath : e.get? searchPathVariable = some "/opt:~/bin:" := rfl
  have hentries : searchEntries "/opt:~/bin:" = ["/opt"] ++ ["~/bin", ""] := rfl
  have hextra : ∀ d ∈ ["/home"], ':' ∉ d.toList ∧
      ¬Qualifies twoTools (expand (home account e) d / "cargo") := by
    intro d hd
    obtain rfl := List.mem_singleton.1 hd
    have hmissing : twoTools.isExecutable ⟨"/home/cargo"⟩ = false := rfl
    have hbelow : expand (home account e) "/home" / "cargo" = ⟨"/home/cargo"⟩ := by
      decide
    rw [qualifies_iff, hbelow, hmissing]
    exact ⟨by decide, Bool.false_ne_true⟩
  obtain ⟨-, ⟨-, hcandidate⟩, -, -, -, -, hinherited, happended, hinserted, -⟩ :=
    lookup_first_match twoTools account e t .build t.layout "/opt:~/bin:"
  have hbelow : expand (home account e) "~/bin" / "cargo" = ⟨"/home/bin/cargo"⟩ := by
    have htilde : ("~/bin".toList.splitOn '/').head? = some ['~'] := rfl
    have hcases := hcandidate "~/bin"
    rw [if_pos htilde] at hcases
    exact (hcases.1 "/home" hhome (by decide)).trans (by decide)
  exact ⟨hhome, hbelow, hpassed, hmessage, hpath, hentries, hextra, hinherited hpath,
    happended hpassed "/bin", hinserted ["/opt"] ["/home"] ["~/bin", ""] hentries hextra⟩

end Preflight

end BootMedia
