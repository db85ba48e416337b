import BootMedia.Preflight.Report
import BootMedia.Proofs.Text.Spacing

namespace BootMedia

open scoped List

namespace Text

variable {m n : Nat} {x y : String}

theorem isDigit_of_mem_toDigits {c : Char} (h : c ∈ Nat.toDigits 10 n) : c.isDigit :=
  Nat.isDigit_of_mem_toDigits (by decide) (by decide) h

theorem newline_not_mem_toDigits (n : Nat) : '\n' ∉ Nat.toDigits 10 n :=
  fun h ↦ absurd (isDigit_of_mem_toDigits h) (by decide)

theorem toString_append_inj (hx : ∀ c ∈ x.toList.head?, c.isDigit = false)
    (hy : ∀ c ∈ y.toList.head?, c.isDigit = false) (h : toString m ++ x = toString n ++ y) :
    m = n ∧ x = y := by
  have hl : Nat.toDigits 10 m ++ x.toList = Nat.toDigits 10 n ++ y.toList := by
    simpa using congrArg String.toList h
  obtain ⟨hdigits, hrest⟩ := Spacing.append_inj_of_all (fun _ ↦ isDigit_of_mem_toDigits)
    (fun _ ↦ isDigit_of_mem_toDigits) hx hy hl
  have hvalue := congrArg (Nat.ofDigitChars 10 · 0) hdigits
  exact ⟨by simpa using hvalue, String.toList_injective hrest⟩

end Text

open Text

def Check.IsUnbroken (c : Check) : Prop :=
  '\n' ∉ c.name.toList ∧ '\n' ∉ c.message.toList ∧ ∀ s ∈ c.suggestion, '\n' ∉ s.toList

namespace Report

variable {r : Report} {c : Check} {cs : List Check}

def pushAll (r : Report) (cs : List Check) : Report := cs.foldl push r

theorem pushAll_cons (r : Report) (c : Check) (cs : List Check) :
    r.pushAll (c :: cs) = (r.push c).pushAll cs := rfl

theorem checks_push (r : Report) (c : Check) : (r.push c).checks = r.checks ++ [c] := rfl

theorem passedCount_push (r : Report) (c : Check) :
    (r.push c).passedCount = r.passedCount + if c.passed then 1 else 0 := by
  simp [passedCount, push, List.countP_singleton]

theorem failing_push (r : Report) (c : Check) :
    (r.push c).failing = r.failing ++ if c.passed then [] else [c] := by
  cases hc : c.passed <;> simp [failing, push, hc]

theorem isOk_push (r : Report) (c : Check) : (r.push c).isOk = (r.isOk && c.passed) := by
  simp [isOk, push]

theorem isOk_pushAll_of_not (h : r.isOk = false) (cs : List Check) :
    (r.pushAll cs).isOk = false := by
  induction cs generalizing r with
  | nil => exact h
  | cons c cs ih =>
    apply ih
    rw [isOk_push, h, Bool.false_and]

/-- The views of a report agree with each other on the checks. The failures are the longest sublist
of checks that did not pass. -/
structure Accounts (r : Report) (cs : List Check) : Prop where
  checks_eq : r.checks = cs
  passedCount_add : r.passedCount + r.failing.length = cs.length
  failing_sublist : r.failing <+ cs
  not_passed_of_failing : ∀ c ∈ r.failing, c.passed = false
  sublist_failing : ∀ l, l <+ cs → (∀ c ∈ l, c.passed = false) → l <+ r.failing
  isOk_iff_failing : r.isOk ↔ r.failing = []
  isOk_iff_passedCount : r.isOk ↔ r.passedCount = cs.length

namespace Accounts

theorem empty : Report.empty.Accounts [] where
  checks_eq := rfl
  passedCount_add := rfl
  failing_sublist := .slnil
  not_passed_of_failing := nofun
  sublist_failing _ hl _ := hl
  isOk_iff_failing := by decide
  isOk_iff_passedCount := by decide

theorem push_passed (h : r.Accounts cs) (hc : c.passed) : (r.push c).Accounts (cs ++ [c]) := by
  have hcount : (r.push c).passedCount = r.passedCount + 1 := by
    rw [passedCount_push, if_pos hc]
  have hfailing : (r.push c).failing = r.failing := by
    rw [failing_push, if_pos hc, List.append_nil]
  have hok : (r.push c).isOk = r.isOk := by
    rw [isOk_push, hc, Bool.and_true]
  have hlength : (cs ++ [c]).length = cs.length + 1 := List.length_append
  have htotal := h.passedCount_add
  constructor
  case checks_eq => rw [checks_push, h.checks_eq]
  case passedCount_add =>
    rw [hcount, hfailing, hlength]
    omega
  case failing_sublist =>
    rw [hfailing]
    exact h.failing_sublist.trans (List.sublist_append_left cs [c])
  case not_passed_of_failing =>
    rw [hfailing]
    exact h.not_passed_of_failing
  case sublist_failing =>
    intro l hl hfailed
    obtain ⟨l, m, rfl, hcs, hm⟩ := List.sublist_append_iff.1 hl
    obtain ⟨hlfailed, hmfailed⟩ := List.forall_mem_append.1 hfailed
    -- The check that was pushed is not among those that failed.
    obtain rfl | rfl := List.sublist_singleton.1 hm
    · rw [hfailing, List.append_nil]
      exact h.sublist_failing l hcs hlfailed
    · rw [hmfailed c List.mem_cons_self] at hc
      contradiction
  case isOk_iff_failing =>
    rw [hfailing, hok]
    exact h.isOk_iff_failing
  case isOk_iff_passedCount =>
    rw [hok, h.isOk_iff_passedCount, hcount, hlength]
    omega

theorem push_failed (h : r.Accounts cs) (hc : c.passed = false) :
    (r.push c).Accounts (cs ++ [c]) := by
  have hcount : (r.push c).passedCount = r.passedCount := by
    rw [passedCount_push, hc]
    rfl
  have hfailing : (r.push c).failing = r.failing ++ [c] := by
    rw [failing_push, hc]
    rfl
  have hok : (r.push c).isOk = false := by
    rw [isOk_push, hc, Bool.and_false]
  have hlength : (cs ++ [c]).length = cs.length + 1 := List.length_append
  have htotal := h.passedCount_add
  constructor
  case checks_eq => rw [checks_push, h.checks_eq]
  case passedCount_add =>
    rw [hcount, hfailing, List.length_append, hlength, List.length_singleton]
    omega
  case failing_sublist =>
    rw [hfailing]
    exact h.failing_sublist.append_right [c]
  case not_passed_of_failing =>
    rw [hfailing, List.forall_mem_append]
    exact ⟨h.not_passed_of_failing, by simpa using hc⟩
  case sublist_failing =>
    intro l hl hfailed
    obtain ⟨l, m, rfl, hcs, hm⟩ := List.sublist_append_iff.1 hl
    rw [hfailing]
    exact (h.sublist_failing l hcs (List.forall_mem_append.1 hfailed).1).append hm
  case isOk_iff_failing => simp [hok, hfailing]
  case isOk_iff_passedCount =>
    have hne : r.passedCount ≠ cs.length + 1 := by omega
    simp [hok, hcount, hne]

theorem push (h : r.Accounts cs) (c : Check) : (r.push c).Accounts (cs ++ [c]) := by
  cases hc : c.passed with
  | true => exact h.push_passed hc
  | false => exact h.push_failed hc

theorem pushAll (h : r.Accounts cs) (more : List Check) :
    (r.pushAll more).Accounts (cs ++ more) := by
  induction more generalizing r cs with
  | nil => simpa [Report.pushAll] using h
  | cons c more ih => simpa [pushAll_cons] using ih (h.push c)

end Accounts

inductive Line where
  | heading
  | blank
  | outcome (passed : Bool) (text : String)
  | suggestion (text : String)
  | success (passed total : Nat)
  | failure (passed total : Nat)
  | failed (name : String)

namespace Line

def parts : Line → List String
  | heading => ["=== Preflight Check Results ==="]
  | blank => []
  | outcome passed text => [if passed then "[OK] " else "[FAIL] ", text]
  | suggestion text => ["     Suggestion: ", text]
  | success passed total =>
    ["All preflight checks passed (", toString passed, "/", toString total, ")"]
  | failure passed total =>
    ["Preflight checks failed: ", toString passed, " of ", toString total, " passed"]
  | failed name => ["  - ", name]

def text (l : Line) : String := .join l.parts

def ofCheck (c : Check) : List Line :=
  outcome c.passed (c.name ++ ": " ++ c.message) :: (c.suggestion.map suggestion).toList

def written (ls : List Line) : String := .join (ls.map fun l ↦ l.text ++ "\n")

def IsUnbroken (l : Line) : Prop := '\n' ∉ l.text.toList

variable {l l' : Line} {ls ls' : List Line} {x : String}

theorem written_cons (l : Line) (ls : List Line) :
    written (l :: ls) = l.text ++ "\n" ++ written ls := by
  rw [written, List.map_cons, String.join_cons, written]

theorem written_append (ls ls' : List Line) : written (ls ++ ls') = written ls ++ written ls' := by
  rw [written, List.map_append, String.join_append, written, written]

/-- The first characters of a line. They tell what it states. -/
def mark : Line → List Char
  | heading => ['=', '=', '=']
  | blank => []
  | outcome passed _ => ['[', if passed then 'O' else 'F', if passed then 'K' else 'A']
  | suggestion _ => [' ', ' ', ' ']
  | success _ _ => ['A', 'l', 'l']
  | failure _ _ => ['P', 'r', 'e']
  | failed _ => [' ', ' ', '-']

theorem take_text (l : Line) : l.text.toList.take 3 = l.mark := by
  cases l with
  | blank => rfl
  | outcome passed _ =>
    rw [text, parts, String.join_cons, String.toList_append]
    cases passed <;> rfl
  | _ =>
    rw [text, parts, String.join_cons, String.toList_append]
    rfl

theorem text_injective : Function.Injective text := by
  intro l l' h
  have hmark : l.mark = l'.mark := by
    rw [← take_text, h, take_text]
  -- Lines of two kinds begin differently.
  cases l <;> cases l' <;> try simp [mark] at hmark
  all_goals simp only [text, parts, String.join_cons, String.append_right_inj] at h
  case heading.heading | blank.blank => rfl
  case outcome.outcome passed t passed' t' =>
    obtain rfl : passed = passed' := by
      cases passed <;> cases passed' <;> simp_all
    simpa using h
  case suggestion.suggestion | failed.failed => simpa using h
  case success.success | failure.failure =>
    obtain ⟨rfl, htotal⟩ := toString_append_inj (by simp) (by simp) h
    rw [String.append_right_inj] at htotal
    obtain ⟨rfl, -⟩ := toString_append_inj (by simp) (by simp) htotal
    rfl

theorem written_cons_ne (l : Line) (ls : List Line) : written (l :: ls) ≠ "" := by
  intro h
  have hl := congrArg String.toList h
  simp [written_cons] at hl

theorem IsUnbroken.ne_newline (h : l.IsUnbroken) : ∀ c ∈ l.text.toList, (c != '\n') = true := by
  intro c hc
  simpa using ne_of_mem_of_not_mem hc h

/-- Lines that are not broken are read back from their text: each ends at the first line break, and
its text tells which one it is. -/
theorem written_inj (h : ∀ l ∈ ls, l.IsUnbroken) (h' : ∀ l ∈ ls', l.IsUnbroken)
    (he : written ls = written ls') : ls = ls' := by
  induction ls generalizing ls' with
  | nil =>
    cases ls' with
    | nil => rfl
    | cons l' ls' => exact absurd he.symm (written_cons_ne l' ls')
  | cons l ls ih =>
    cases ls' with
    | nil => exact absurd he (written_cons_ne l ls)
    | cons l' ls' =>
      obtain ⟨hline, hls⟩ := List.forall_mem_cons.1 h
      obtain ⟨hline', hls'⟩ := List.forall_mem_cons.1 h'
      have hl := congrArg String.toList he
      simp only [written_cons, String.toList_append, List.append_assoc] at hl
      obtain ⟨htext, hrest⟩ := Spacing.append_inj_of_all hline.ne_newline hline'.ne_newline
        (by simp) (by simp) hl
      obtain rfl := text_injective (String.toList_injective htext)
      have hwritten : written ls = written ls' :=
        String.toList_injective (List.append_cancel_left hrest)
      rw [ih hls hls' hwritten]

theorem isUnbroken_iff : l.IsUnbroken ↔ ∀ part ∈ l.parts, '\n' ∉ part.toList := by
  simp [IsUnbroken, text, String.toList_join]

theorem isUnbroken_heading : heading.IsUnbroken := by
  simp [isUnbroken_iff, parts]

theorem isUnbroken_blank : blank.IsUnbroken := by
  simp [isUnbroken_iff, parts]

theorem isUnbroken_success (m n : Nat) : (success m n).IsUnbroken := by
  simp [isUnbroken_iff, parts, newline_not_mem_toDigits]

theorem isUnbroken_failure (m n : Nat) : (failure m n).IsUnbroken := by
  simp [isUnbroken_iff, parts, newline_not_mem_toDigits]

theorem isUnbroken_failed (h : '\n' ∉ x.toList) : (failed x).IsUnbroken := by
  simpa [isUnbroken_iff, parts] using h

theorem isUnbroken_of_mem_ofCheck (hc : c.IsUnbroken) (hl : l ∈ ofCheck c) : l.IsUnbroken := by
  obtain ⟨hname, hmessage, hsuggestion⟩ := hc
  rcases List.mem_cons.1 hl with rfl | hl
  · cases hp : c.passed <;> simp [isUnbroken_iff, parts, hname, hmessage]
  · rw [Option.mem_toList, Option.map_eq_some_iff] at hl
    obtain ⟨s, hs, rfl⟩ := hl
    simpa [isUnbroken_iff, parts] using hsuggestion s hs

theorem isUnbroken_of_mem_lines {closing : List Line} (hcs : ∀ c ∈ cs, c.IsUnbroken)
    (hclosing : ∀ l ∈ closing, l.IsUnbroken) :
    ∀ l ∈ heading :: blank :: cs.flatMap ofCheck ++ blank :: closing, l.IsUnbroken := by
  intro l hl
  simp only [List.cons_append, List.mem_cons, List.mem_append, List.mem_flatMap] at hl
  rcases hl with rfl | rfl | ⟨c, hc, hl⟩ | rfl | hl
  · exact isUnbroken_heading
  · exact isUnbroken_blank
  · exact isUnbroken_of_mem_ofCheck (hcs c hc) hl
  · exact isUnbroken_blank
  · exact hclosing l hl

theorem written_ofCheck (c : Check) : written (ofCheck c) = c.summary := by
  cases h : c.suggestion <;>
    simp [h, written, ofCheck, text, parts, Check.summary, String.append_assoc]

theorem written_flatMap_ofCheck (cs : List Check) :
    written (cs.flatMap ofCheck) = .join (cs.map (·.summary)) := by
  induction cs with
  | nil => rfl
  | cons c cs ih =>
    rw [List.flatMap_cons, written_append, written_ofCheck, ih, List.map_cons, String.join_cons]

end Line

theorem verdict_of_isOk (h : r.isOk) :
    r.verdict = Line.written [.success r.passedCount r.checks.length] := by
  simp [verdict, h, Line.written, Line.text, Line.parts, String.append_assoc]

theorem verdict_of_not_isOk (h : r.isOk = false) :
    r.verdict = Line.written
      (.failure r.passedCount r.checks.length :: r.failing.map fun c ↦ .failed c.name) := by
  simp [verdict, h, Line.written, Line.text, Line.parts, String.append_assoc, Function.comp_def]

theorem isOk_iff (r : Report) : r.isOk ↔ ∀ c ∈ r.checks, c.passed := List.all_eq_true

theorem isOk_eq_false_iff (r : Report) : r.isOk = false ↔ ∃ c ∈ r.checks, c.passed = false := by
  simp [isOk]

theorem exists_closing (r : Report) :
    ∃ closing, r.verdict = Line.written closing ∧
      (closing = [.success r.passedCount r.checks.length] ↔ ∀ c ∈ r.checks, c.passed) ∧
      (closing = .failure r.passedCount r.checks.length :: r.failing.map (.failed ·.name) ↔
        ∃ c ∈ r.checks, c.passed = false) ∧
      ((∀ c ∈ r.checks, c.IsUnbroken) → ∀ l ∈ closing, l.IsUnbroken) := by
  rw [← isOk_iff, ← isOk_eq_false_iff]
  cases h : r.isOk with
  | true =>
    refine ⟨_, verdict_of_isOk h, by simp, by simp, fun _ l hl ↦ ?_⟩
    obtain rfl := List.mem_singleton.1 hl
    exact Line.isUnbroken_success _ _
  | false =>
    refine ⟨_, verdict_of_not_isOk h, by simp, by simp, fun hunbroken l hl ↦ ?_⟩
    rcases List.mem_cons.1 hl with rfl | hl
    · exact Line.isUnbroken_failure _ _
    · obtain ⟨c, hc, rfl⟩ := List.mem_map.1 hl
      exact Line.isUnbroken_failed (hunbroken c (List.mem_of_mem_filter hc)).1

theorem summary_eq_written {closing : List Line} (h : r.verdict = Line.written closing) :
    r.summary = Line.written
      (.heading :: .blank :: r.checks.flatMap Line.ofCheck ++ .blank :: closing) := by
  calc r.summary
      = "=== Preflight Check Results ===\n\n" ++ .join (r.checks.map (·.summary)) ++ "\n" ++
          r.verdict := rfl
    _ = Line.written [.heading, .blank] ++ Line.written (r.checks.flatMap Line.ofCheck) ++
          Line.written [.blank] ++ Line.written closing := by
      rw [h, Line.written_flatMap_ofCheck]
      simp [Line.written, Line.text, Line.parts]
    _ = _ := by
      simp only [← Line.written_append, List.append_assoc]
      rfl

/-- A report after any number of pushes onto an empty one. Its views agree on all the checks that
were pushed, and once it is not ok it never is again. The summary has the outcome of each check, in
their order, each with its suggestion behind it if there is one. It ends with success and both
counts exactly if all checks passed, and otherwise with both counts and the names of those that
failed. If no check breaks a line, the summary cannot be read as any other lines. -/
theorem every_check_accounted (before after : List Check) :
    let r := Report.empty.pushAll before
    r.Accounts before ∧ (r.isOk = false → (r.pushAll after).isOk = false) ∧
    ∃ closing,
      let lines := .heading :: .blank :: before.flatMap Line.ofCheck ++ .blank :: closing
      r.summary = Line.written lines ∧
      (closing = [.success r.passedCount before.length] ↔ ∀ c ∈ before, c.passed) ∧
      (closing = .failure r.passedCount before.length :: r.failing.map (.failed ·.name) ↔
        ∃ c ∈ before, c.passed = false) ∧
      ((∀ c ∈ before, c.IsUnbroken) → ∀ ls, (∀ l ∈ ls, l.IsUnbroken) →
        (r.summary = Line.written ls ↔ ls = lines)) := by
  intro r
  have haccounts : r.Accounts before := Accounts.empty.pushAll before
  obtain ⟨closing, hverdict, hsuccess, hfailure, hclosing⟩ := r.exists_closing
  have hsummary := summary_eq_written hverdict
  rw [haccounts.checks_eq] at hsuccess hfailure hclosing hsummary
  refine ⟨haccounts, fun h ↦ isOk_pushAll_of_not h after, closing, hsummary, hsuccess, hfailure,
    fun hbefore ls hls ↦ ?_⟩
  rw [hsummary]
  constructor
  · intro h
    have hlines := Line.isUnbroken_of_mem_lines hbefore (hclosing hbefore)
    exact (Line.written_inj hlines hls h).symm
  · rintro rfl
    rfl

theorem every_check_accounted_mixed :
    let tool : Check := ⟨"cargo tool", true, "Found at /bin/cargo", some "Update it"⟩
    let image : Check := ⟨"bios.fd firmware", false, "Not found", none⟩
    let r := (Report.empty.push tool).push image
    (∀ c ∈ [tool, image], c.IsUnbroken) ∧ r.isOk = false ∧
      (r.push (.pass "QEMU tool" "Found")).isOk = false ∧
      ∀ ls, (∀ l ∈ ls, l.IsUnbroken) → (r.summary = Line.written ls ↔
        ls = [.heading, .blank, .outcome true "cargo tool: Found at /bin/cargo",
          .suggestion "Update it", .outcome false "bios.fd firmware: Not found", .blank,
          .failure 1 2, .failed "bios.fd firmware"]) := by
  intro tool image r
  have hunbroken : ∀ c ∈ [tool, image], c.IsUnbroken := by
    simp [tool, image, Check.IsUnbroken]
  have hok : r.isOk = false := rfl
  obtain ⟨-, hlater, closing, -, -, hclosing, hread⟩ :=
    every_check_accounted [tool, image] [.pass "QEMU tool" "Found"]
  obtain rfl := hclosing.2 ⟨image, by simp, rfl⟩
  exact ⟨hunbroken, hok, hlater hok, hread hunbroken⟩

end Report

end BootMedia
