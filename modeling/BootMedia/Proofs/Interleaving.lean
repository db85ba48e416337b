import BootMedia.Plan.Interleaving
import BootMedia.Proofs.Plan
import Mathlib.Data.List.Count

namespace BootMedia

def FileCall.outcome (c : FileCall) (fs : FileSystem) : Except Fault Unit × FileSystem :=
  match c.perform fs with
  | .ok fs' => (.ok (), fs')
  | .error fault => (.error fault, fs)

theorem FileCall.outcome_of_ok {c : FileCall} {fs fs' : FileSystem} (h : c.perform fs = .ok fs') :
    c.outcome fs = (.ok (), fs') := by
  rw [outcome, h]

theorem FileCall.outcome_of_error {c : FileCall} {fs : FileSystem} {fault : Fault}
    (h : c.perform fs = .error fault) : c.outcome fs = (.error fault, fs) := by
  rw [outcome, h]

theorem Session.call_eq (s : Session) (c : FileCall) :
    s.call c = ((c.outcome s.files).1, { s with files := (c.outcome s.files).2 }) := by
  cases h : c.perform s.files with
  | ok fs => rw [call_of_ok h, FileCall.outcome_of_ok h]
  | error fault => rw [call_of_error h, FileCall.outcome_of_error h]

namespace Plan

variable {α β : Type} {runner : Runner} {fs fs' : FileSystem} {p : Plan α} {c : FileCall}
  {R : FileSystem → FileSystem → Prop} {G : FileCall → FileSystem → FileSystem → Prop}
  {Q : Except Failure α → FileSystem → Prop} {m n : Nat}

theorem perform_step (runner : Runner) (p : Plan α) (s : Session) :
    (p.step runner s).1.perform runner (p.step runner s).2 = p.perform runner s := by
  cases p <;> rfl

/-- Whatever is done to the files within `R`, the plan makes file calls only, each within `G`, and
ends as `Q` says. -/
inductive Withstands (R : FileSystem → FileSystem → Prop)
    (G : FileCall → FileSystem → FileSystem → Prop) (Q : Except Failure α → FileSystem → Prop) :
    Plan α → FileSystem → Prop
  | done {result : Except Failure α} {fs : FileSystem} :
      Q result fs → Withstands R G Q (done result) fs
  | print (text : String) {next : Plan α} {fs : FileSystem} :
      Withstands R G Q next fs → Withstands R G Q (print text next) fs
  | reportTime (label : String) {next : Plan α} {fs : FileSystem} :
      Withstands R G Q next fs → Withstands R G Q (reportTime label next) fs
  | call {c : FileCall} {next : Except Fault Unit → Plan α} {fs : FileSystem} :
      (∀ fs', R fs fs' → G c fs' (c.outcome fs').2) →
      (∀ fs', R fs fs' → Withstands R G Q (next (c.outcome fs').1) (c.outcome fs').2) →
      Withstands R G Q (call c next) fs

namespace Withstands

theorem mono (h : p.Withstands R G Q fs) (hR : R fs fs')
    (htrans : ∀ {a b c}, R a b → R b c → R a c)
    (hQ : ∀ {r fs fs'}, R fs fs' → Q r fs → Q r fs') : p.Withstands R G Q fs' := by
  induction h with
  | done hq => exact .done (hQ hR hq)
  | print text _ ih => exact .print text (ih hR)
  | reportTime label _ ih => exact .reportTime label (ih hR)
  | call hc hn _ => exact .call (fun _ h ↦ hc _ (htrans hR h)) fun _ h ↦ hn _ (htrans hR h)

theorem bind {k : α → Plan β} {Q' : Except Failure β → FileSystem → Prop}
    (h : p.Withstands R G Q fs)
    (hk : ∀ {r fs}, Q r fs → ∃ a, r = .ok a ∧ (k a).Withstands R G Q' fs) :
    (p >>= k).Withstands R G Q' fs := by
  change (p.andThen _).Withstands R G Q' fs
  induction h with
  | done hq =>
    obtain ⟨a, rfl, ha⟩ := hk hq
    exact ha
  | print text _ ih => exact .print text ih
  | reportTime label _ ih => exact .reportTime label ih
  | call hc _ ih => exact .call hc ih

theorem attempt_bind {k : Except Fault Unit → Plan α}
    (h : ∀ fs', R fs fs' → G c fs' (c.outcome fs').2 ∧
      (k (c.outcome fs').1).Withstands R G Q (c.outcome fs').2) :
    (attempt c >>= k).Withstands R G Q fs :=
  .call (fun fs' hR ↦ (h fs' hR).1) fun fs' hR ↦ (h fs' hR).2

theorem require_bind {k : Unit → Plan α} {failure : Fault → Failure}
    (h : ∀ fs', R fs fs' → ∃ fs'', c.perform fs' = .ok fs'' ∧ G c fs' fs'' ∧
      (k ()).Withstands R G Q fs'') :
    (require c failure >>= k).Withstands R G Q fs := by
  refine .call (fun fs' hR ↦ ?_) fun fs' hR ↦ ?_
  · obtain ⟨fs'', hc, hg, -⟩ := h fs' hR
    rwa [FileCall.outcome_of_ok hc]
  · obtain ⟨fs'', hc, -, hk⟩ := h fs' hR
    rw [FileCall.outcome_of_ok hc]
    exact hk

theorem step {s : Session} (h : p.Withstands R G Q s.files) (hrefl : ∀ fs, R fs fs)
    (runner : Runner) :
    (p.step runner s).1.Withstands R G Q (p.step runner s).2.files ∧
      (p.call? = none ∧ (p.step runner s).2.files = s.files ∨
        ∃ c, p.call? = some c ∧ G c s.files (p.step runner s).2.files) := by
  generalize hfs : s.files = fs at h
  cases h with
  | done hq => exact ⟨hfs ▸ .done hq, .inl ⟨rfl, hfs⟩⟩
  | print text hn => exact ⟨hfs ▸ hn, .inl ⟨rfl, hfs⟩⟩
  | reportTime label hn => exact ⟨hfs ▸ hn, .inl ⟨rfl, hfs⟩⟩
  | @call c next fs hc hn =>
    subst hfs
    simp only [Plan.step, Session.call_eq]
    exact ⟨hn _ (hrefl _), .inr ⟨c, rfl, hc _ (hrefl _)⟩⟩

end Withstands

/-- The plan cannot end well without making the call. -/
inductive Needs (c : FileCall) : Plan α → Prop
  | failed (f : Failure) : Needs c (done (.error f))
  | print (text : String) {next : Plan α} : Needs c next → Needs c (print text next)
  | reportTime (label : String) {next : Plan α} : Needs c next → Needs c (reportTime label next)
  | run (i : Invocation) {next : Except Failure Int → Plan α} :
      (∀ r, Needs c (next r)) → Needs c (run i next)
  | here (next : Except Fault Unit → Plan α) : Needs c (call c next)
  | behind (d : FileCall) {next : Except Fault Unit → Plan α} :
      (∀ r, Needs c (next r)) → Needs c (call d next)

namespace Needs

theorem bind (p : Plan α) {k : α → Plan β} (hk : ∀ a, (k a).Needs c) : (p >>= k).Needs c := by
  change (p.andThen _).Needs c
  induction p with
  | done result =>
    cases result with
    | ok a => exact hk a
    | error f => exact .failed f
  | print text next ih => exact .print text ih
  | reportTime label next ih => exact .reportTime label ih
  | run i next ih => exact .run i ih
  | call d next ih => exact .behind d ih

theorem require_bind (c : FileCall) (failure : Fault → Failure) (k : Unit → Plan α) :
    (require c failure >>= k).Needs c := .here _

theorem step {s : Session} (h : p.Needs c) (runner : Runner) :
    (p.step runner s).1.Needs c ∨ p.call? = some c := by
  cases h with
  | failed f => exact .inl (.failed f)
  | print text hn => exact .inl hn
  | reportTime label hn => exact .inl hn
  | run i hn => exact .inl (hn _)
  | here next => exact .inr rfl
  | behind d hn => exact .inl (hn _)

end Needs

inductive Within : Nat → Plan α → Prop
  | done (n : Nat) (result : Except Failure α) : Within n (done result)
  | print {n : Nat} (text : String) {next : Plan α} :
      Within n next → Within (n + 1) (print text next)
  | reportTime {n : Nat} (label : String) {next : Plan α} :
      Within n next → Within (n + 1) (reportTime label next)
  | run {n : Nat} (i : Invocation) {next : Except Failure Int → Plan α} :
      (∀ r, Within n (next r)) → Within (n + 1) (run i next)
  | call {n : Nat} (c : FileCall) {next : Except Fault Unit → Plan α} :
      (∀ r, Within n (next r)) → Within (n + 1) (call c next)

namespace Within

theorem mono (h : p.Within m) (hle : m ≤ n) : p.Within n := by
  induction h generalizing n with
  | done m result => exact .done n result
  | @print m text next _ ih =>
    obtain ⟨n, rfl⟩ := Nat.exists_eq_add_one_of_ne_zero (Nat.ne_zero_of_lt hle)
    exact .print text (ih (Nat.le_of_succ_le_succ hle))
  | @reportTime m label next _ ih =>
    obtain ⟨n, rfl⟩ := Nat.exists_eq_add_one_of_ne_zero (Nat.ne_zero_of_lt hle)
    exact .reportTime label (ih (Nat.le_of_succ_le_succ hle))
  | @run m i next _ ih =>
    obtain ⟨n, rfl⟩ := Nat.exists_eq_add_one_of_ne_zero (Nat.ne_zero_of_lt hle)
    exact .run i fun r ↦ ih r (Nat.le_of_succ_le_succ hle)
  | @call m c next _ ih =>
    obtain ⟨n, rfl⟩ := Nat.exists_eq_add_one_of_ne_zero (Nat.ne_zero_of_lt hle)
    exact .call c fun r ↦ ih r (Nat.le_of_succ_le_succ hle)

theorem bind {k : α → Plan β} (h : p.Within m) (hk : ∀ a, (k a).Within n) :
    (p >>= k).Within (n + m) := by
  change (p.andThen _).Within (n + m)
  induction h with
  | done m result =>
    cases result with
    | ok a => exact (hk a).mono (Nat.le_add_right n m)
    | error f => exact .done _ _
  | print text _ ih => exact .print text ih
  | reportTime label _ ih => exact .reportTime label ih
  | run i _ ih => exact .run i ih
  | call c _ ih => exact .call c ih

theorem require_bind (c : FileCall) (failure : Fault → Failure) {k : Unit → Plan α}
    (hk : (k ()).Within n) : (require c failure >>= k).Within (n + 1) := by
  refine .call c fun r ↦ ?_
  cases r with
  | ok a => exact hk
  | error fault => exact .done _ _

theorem step {s : Session} (h : p.Within n) (runner : Runner) :
    (p.step runner s).1.Within (n - 1) := by
  cases h with
  | done n result => exact .done _ result
  | print text hn => exact hn
  | reportTime label hn => exact hn
  | run i hn => exact hn _
  | call c hn => exact hn _

theorem exists_done (h : p.Within 0) : ∃ r, p = .done r := by
  cases h with
  | done n r => exact ⟨r, rfl⟩

end Within

end Plan

namespace Interleaving

variable {ι α : Type} [DecidableEq ι] {x : Interleaving ι α} {i j : ι} {n : Nat} {c : FileCall}

theorem plans_turn_self (runner : Runner) (x : Interleaving ι α) (i : ι) :
    (x.turn runner i).plans i = ((x.plans i).step runner x.session).1 := if_pos rfl

theorem plans_turn_of_ne (runner : Runner) (x : Interleaving ι α) (h : j ≠ i) :
    (x.turn runner i).plans j = x.plans j := if_neg h

theorem run_replicate (runner : Runner) (h : (x.plans i).Within n) :
    let y := x.run runner (List.replicate n i)
    y.plans i = .done ((x.plans i).perform runner x.session).1 ∧
      y.session = ((x.plans i).perform runner x.session).2 := by
  intro y
  induction n generalizing x with
  | zero =>
    obtain ⟨r, hr⟩ := h.exists_done
    rw [hr]
    exact ⟨hr, rfl⟩
  | succ n ih =>
    have hturn : ((x.turn runner i).plans i).Within n := by
      rw [plans_turn_self]
      exact h.step runner
    have hrest := ih hturn
    rw [plans_turn_self] at hrest
    have hperform := Plan.perform_step runner (x.plans i) x.session
    rwa [show ((x.turn runner i).session) = ((x.plans i).step runner x.session).2 from rfl,
      hperform] at hrest

theorem within_run (runner : Runner) (order : List ι) (h : (x.plans i).Within n) :
    ((x.run runner order).plans i).Within (n - order.count i) := by
  induction order generalizing x n with
  | nil => exact h
  | cons j order ih =>
    by_cases hj : j = i
    · subst hj
      have hturn : ((x.turn runner j).plans j).Within (n - 1) := by
        rw [plans_turn_self]
        exact h.step runner
      rw [List.count_cons_self, Nat.add_comm, Nat.sub_add_eq]
      exact ih hturn
    · rw [List.count_cons_of_ne hj]
      apply ih
      rwa [plans_turn_of_ne runner x (Ne.symm hj)]

theorem exists_done_run {order : List ι} (runner : Runner) (h : (x.plans i).Within n)
    (hn : n ≤ order.count i) : ∃ r, (x.run runner order).plans i = .done r := by
  have hrest := within_run runner order h
  rw [Nat.sub_eq_zero_of_le hn] at hrest
  exact hrest.exists_done

theorem needs_turn (runner : Runner) (j : ι) (h : (x.plans i).Needs c ∨ (i, c) ∈ x.calls) :
    ((x.turn runner j).plans i).Needs c ∨ (i, c) ∈ (x.turn runner j).calls := by
  rcases h with h | h
  · by_cases hj : i = j
    · subst hj
      rw [plans_turn_self]
      refine (h.step runner).imp_right fun hc ↦ ?_
      exact List.mem_append_right _ (by simp [hc])
    · rw [plans_turn_of_ne runner x hj]
      exact .inl h
  · exact .inr (List.mem_append_left _ h)

/-- A plan that has ended well has made the calls it needs. -/
theorem mem_calls_run {order : List ι} {a : α} (runner : Runner) (h : (x.plans i).Needs c)
    (ha : (x.run runner order).plans i = .done (.ok a)) : (i, c) ∈ (x.run runner order).calls := by
  have hrun : ∀ y : Interleaving ι α, (y.plans i).Needs c ∨ (i, c) ∈ y.calls →
      ((y.run runner order).plans i).Needs c ∨ (i, c) ∈ (y.run runner order).calls := by
    clear ha
    induction order with
    | nil => exact fun _ hy ↦ hy
    | cons j order ih => exact fun y hy ↦ ih (y.turn runner j) (needs_turn runner j hy)
  refine (hrun x (.inl h)).resolve_left fun hneeds ↦ ?_
  rw [ha] at hneeds
  cases hneeds

section Coexists

variable {R : FileSystem → FileSystem → Prop} {G : ι → FileCall → FileSystem → FileSystem → Prop}
  {Q : ι → Except Failure α → FileSystem → Prop} {L : List (ι × FileCall) → FileSystem → Prop}

/-- What the plans grant one another. -/
structure Rules (R : FileSystem → FileSystem → Prop)
    (G : ι → FileCall → FileSystem → FileSystem → Prop)
    (Q : ι → Except Failure α → FileSystem → Prop)
    (L : List (ι × FileCall) → FileSystem → Prop) : Prop where
  refl : ∀ fs, R fs fs
  trans : ∀ {fs fs' fs''}, R fs fs' → R fs' fs'' → R fs fs''
  grant : ∀ {i c fs fs'}, G i c fs fs' → R fs fs'
  result : ∀ {i r fs fs'}, R fs fs' → Q i r fs → Q i r fs'
  calls : ∀ {i c fs fs' log}, G i c fs fs' → L log fs → L (log ++ [(i, c)]) fs'

/-- Each plan withstands the others, and the calls so far have left the files as `L` says. -/
structure Coexists (R : FileSystem → FileSystem → Prop)
    (G : ι → FileCall → FileSystem → FileSystem → Prop)
    (Q : ι → Except Failure α → FileSystem → Prop)
    (L : List (ι × FileCall) → FileSystem → Prop) (x : Interleaving ι α) : Prop where
  plans : ∀ i, (x.plans i).Withstands R (G i) (Q i) x.session.files
  calls : L x.calls x.session.files

theorem Coexists.turn (h : x.Coexists R G Q L) (hrules : Rules R G Q L) (runner : Runner) (i : ι) :
    (x.turn runner i).Coexists R G Q L := by
  obtain ⟨hself, hfiles⟩ := (h.plans i).step hrules.refl runner
  -- What plan `i` has done is within what the others rely on.
  have hR : R x.session.files (x.turn runner i).session.files := by
    rcases hfiles with ⟨-, hsame⟩ | ⟨c, -, hg⟩
    · change R _ ((x.plans i).step runner x.session).2.files
      rw [hsame]
      exact hrules.refl _
    · exact hrules.grant hg
  refine ⟨fun j ↦ ?_, ?_⟩
  · by_cases hj : j = i
    · subst hj
      rw [plans_turn_self]
      exact hself
    · rw [plans_turn_of_ne runner x hj]
      exact (h.plans j).mono hR hrules.trans hrules.result
  · change L (x.calls ++ (x.plans i).call?.toList.map (i, ·)) _
    rcases hfiles with ⟨hnone, hsame⟩ | ⟨c, hc, hg⟩
    · change L _ ((x.plans i).step runner x.session).2.files
      rw [hnone, hsame]
      simpa using h.calls
    · rw [hc]
      exact hrules.calls hg h.calls

theorem Coexists.run (h : x.Coexists R G Q L) (hrules : Rules R G Q L) (runner : Runner)
    (order : List ι) : (x.run runner order).Coexists R G Q L := by
  induction order generalizing x with
  | nil => exact h
  | cons i order ih => exact ih (h.turn hrules runner i)

omit [DecidableEq ι] in
theorem Coexists.result {r : Except Failure α} (h : x.Coexists R G Q L)
    (hr : x.plans i = .done r) : Q i r x.session.files := by
  have hi := h.plans i
  rw [hr] at hi
  cases hi with
  | done hq => exact hq

end Coexists

end Interleaving

section LastWriter

variable {ι : Type} {calls : List (ι × FileCall)} {i : ι} {c : FileCall} {p : Path}

theorem lastWriter?_append_of_written (calls : List (ι × FileCall)) (i : ι)
    (h : c.written? = some p) : lastWriter? (calls ++ [(i, c)]) p = some i := by
  simp [lastWriter?, List.filter_append, h]

theorem lastWriter?_append_of_not_written (calls : List (ι × FileCall)) (i : ι)
    (h : c.written? ≠ some p) : lastWriter? (calls ++ [(i, c)]) p = lastWriter? calls p := by
  simp [lastWriter?, List.filter_append, h]

theorem isSome_lastWriter? (hmem : (i, c) ∈ calls) (h : c.written? = some p) :
    (lastWriter? calls p).isSome := by
  have hfilter : (i, c) ∈ calls.filter (·.2.written? = some p) :=
    List.mem_filter.2 ⟨hmem, decide_eq_true h⟩
  simpa [lastWriter?] using List.ne_nil_of_mem hfilter

end LastWriter

end BootMedia
