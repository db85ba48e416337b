import BootMedia.Plan.Session

namespace BootMedia

theorem Session.call_of_ok {s : Session} {c : FileCall} {fs : FileSystem}
    (h : c.perform s.files = .ok fs) : s.call c = (.ok (), { s with files := fs }) := by
  rw [call, h]

theorem Session.call_of_error {s : Session} {c : FileCall} {fault : Fault}
    (h : c.perform s.files = .error fault) : s.call c = (.error fault, s) := by
  rw [call, h]

namespace Plan

variable {α β : Type} {runner : Runner}

theorem perform_andThen (p : Plan α) (k : Except Failure α → Plan β) (s : Session) :
    (p.andThen k).perform runner s =
      (k (p.perform runner s).1).perform runner (p.perform runner s).2 := by
  induction p generalizing s with
  | done result => rfl
  | print text next ih => exact ih _
  | reportTime label next ih => exact ih _
  | run i next ih => exact ih _ _
  | call c next ih => exact ih _ _

theorem perform_bind (p : Plan α) (k : α → Plan β) (s : Session) :
    (p >>= k).perform runner s =
      match p.perform runner s with
      | (.ok a, s') => (k a).perform runner s'
      | (.error f, s') => (.error f, s') := by
  change (p.andThen _).perform runner s = _
  rw [perform_andThen]
  rcases p.perform runner s with ⟨a | f, s'⟩ <;> rfl

@[simp]
theorem perform_pure (a : α) (s : Session) :
    (pure a : Plan α).perform runner s = (.ok a, s) := rfl

@[simp]
theorem perform_fail (f : Failure) (s : Session) :
    (fail f : Plan α).perform runner s = (.error f, s) := rfl

@[simp]
theorem perform_line (text : String) (s : Session) :
    (line text).perform runner s = (.ok (), s.print (text ++ "\n")) := rfl

@[simp]
theorem perform_line_bind (text : String) (k : Unit → Plan α) (s : Session) :
    (line text >>= k).perform runner s = (k ()).perform runner (s.print (text ++ "\n")) := rfl

@[simp]
theorem perform_reportTime_bind (label : String) (k : Unit → Plan α) (s : Session) :
    (reportTime label (pure ()) >>= k).perform runner s =
      (k ()).perform runner (s.print ("  [" ++ label ++ "] " ++ elapsedText s.elapsed ++ "\n")) :=
  rfl

theorem perform_exitCode (i : Invocation) (s : Session) :
    (exitCode i).perform runner s = s.run runner i := rfl

theorem perform_attempt_bind (c : FileCall) (k : Except Fault Unit → Plan α) (s : Session) :
    (attempt c >>= k).perform runner s = (k (s.call c).1).perform runner (s.call c).2 := rfl

theorem perform_require_bind (c : FileCall) (failure : Fault → Failure) (k : Unit → Plan α)
    (s : Session) :
    (require c failure >>= k).perform runner s =
      match s.call c with
      | (.ok (), s') => (k ()).perform runner s'
      | (.error fault, s') => (.error (failure fault), s') := by
  rw [perform_bind, require, perform]
  rcases s.call c with ⟨fault | u, s'⟩ <;> rfl

theorem perform_bind_of_ok {p : Plan α} {a : α} {s s' : Session}
    (h : p.perform runner s = (.ok a, s')) (k : α → Plan β) :
    (p >>= k).perform runner s = (k a).perform runner s' := by
  rw [perform_bind, h]

theorem perform_bind_eq_ok {p : Plan α} {k : α → Plan β} {b : β} {s s' : Session}
    (h : (p >>= k).perform runner s = (.ok b, s')) :
    ∃ a s₁, p.perform runner s = (.ok a, s₁) ∧ (k a).perform runner s₁ = (.ok b, s') := by
  rw [perform_bind] at h
  cases hp : p.perform runner s with
  | mk result s₁ =>
    rw [hp] at h
    cases result with
    | ok a => exact ⟨a, s₁, rfl, h⟩
    | error f => cases h

theorem perform_require_bind_eq_ok {c : FileCall} {failure : Fault → Failure} {k : Unit → Plan β}
    {b : β} {s s' : Session} (h : (require c failure >>= k).perform runner s = (.ok b, s')) :
    ∃ fs, c.perform s.files = .ok fs ∧
      (k ()).perform runner { s with files := fs } = (.ok b, s') := by
  rw [perform_require_bind] at h
  cases hc : c.perform s.files with
  | ok fs =>
    rw [Session.call_of_ok hc] at h
    exact ⟨fs, rfl, h⟩
  | error fault =>
    rw [Session.call_of_error hc] at h
    cases h

theorem perform_require_bind_eq_error {c : FileCall} {failure : Fault → Failure}
    {k : Unit → Plan β} {f : Failure} {s s' : Session}
    (h : (require c failure >>= k).perform runner s = (.error f, s')) :
    (∃ fault, c.perform s.files = .error fault ∧ f = failure fault ∧ s' = s) ∨
      ∃ fs, c.perform s.files = .ok fs ∧
        (k ()).perform runner { s with files := fs } = (.error f, s') := by
  rw [perform_require_bind] at h
  cases hc : c.perform s.files with
  | ok fs =>
    rw [Session.call_of_ok hc] at h
    exact .inr ⟨fs, rfl, h⟩
  | error fault =>
    rw [Session.call_of_error hc] at h
    cases h
    exact .inl ⟨fault, rfl, rfl, rfl⟩

theorem perform_timed (label : String) (p : Plan α) (s : Session) :
    (p.timed label).perform runner s =
      (reportTime label (done (p.perform runner s).1)).perform runner (p.perform runner s).2 :=
  perform_andThen _ _ s

/-- The plan prints and makes file calls only, and fails at most as `P` allows, whatever its calls
answer. -/
inductive FilesOnly (P : Failure → Prop) : Plan α → Prop
  | ok (a : α) : FilesOnly P (done (.ok a))
  | error {f : Failure} : P f → FilesOnly P (done (.error f))
  | print (text : String) {next : Plan α} : FilesOnly P next → FilesOnly P (print text next)
  | reportTime (label : String) {next : Plan α} :
      FilesOnly P next → FilesOnly P (reportTime label next)
  | call (c : FileCall) {next : Except Fault Unit → Plan α} :
      (∀ r, FilesOnly P (next r)) → FilesOnly P (call c next)

namespace FilesOnly

variable {P : Failure → Prop}

theorem bind {p : Plan α} {k : α → Plan β} (hp : p.FilesOnly P) (hk : ∀ a, (k a).FilesOnly P) :
    (p >>= k).FilesOnly P := by
  change (p.andThen _).FilesOnly P
  induction hp with
  | ok a => exact hk a
  | error hf => exact .error hf
  | print text h ih => exact .print text ih
  | reportTime label h ih => exact .reportTime label ih
  | call c h ih => exact .call c ih

theorem mono {Q : Failure → Prop} {p : Plan α} (hp : p.FilesOnly P) (h : ∀ f, P f → Q f) :
    p.FilesOnly Q := by
  induction hp with
  | ok a => exact .ok a
  | error hf => exact .error (h _ hf)
  | print text _ ih => exact .print text ih
  | reportTime label _ ih => exact .reportTime label ih
  | call c _ ih => exact .call c ih

theorem line (text : String) : (line text).FilesOnly P := .print _ (.ok ())

theorem attempt (c : FileCall) : (attempt c).FilesOnly P := .call c fun r ↦ .ok r

theorem require {failure : Fault → Failure} (h : ∀ fault, P (failure fault)) (c : FileCall) :
    (require c failure).FilesOnly P := by
  refine .call c fun r ↦ ?_
  cases r with
  | ok a => exact .ok ()
  | error fault => exact .error (h fault)

/-- Such a plan goes on in the same way from all sessions with the same files, and leaves no other
trace than on the files and the output. -/
theorem perform {p : Plan α} (hp : p.FilesOnly P) {s s' : Session} (h : s.files = s'.files)
    (runner runner' : Runner) :
    (p.perform runner s).1 = (p.perform runner' s').1 ∧
      (p.perform runner s).2.files = (p.perform runner' s').2.files ∧
      (p.perform runner s).2.spawned = s.spawned ∧ (p.perform runner s).2.stderr = s.stderr := by
  induction hp generalizing s s' with
  | ok a => exact ⟨rfl, h, rfl, rfl⟩
  | error hf => exact ⟨rfl, h, rfl, rfl⟩
  | print text hn ih => exact ih h
  | reportTime label hn ih => exact ih h
  | call c hn ih =>
    have hc : (s.call c).1 = (s'.call c).1 ∧ (s.call c).2.files = (s'.call c).2.files ∧
        (s.call c).2.spawned = s.spawned ∧ (s.call c).2.stderr = s.stderr := by
      simp only [Session.call, h]
      cases c.perform s'.files <;> simp [h]
    obtain ⟨hr, hf, hs, he⟩ := hc
    obtain ⟨ihr, ihf, ihs, ihe⟩ := ih (s.call c).1 hf
    simp only [Plan.perform, ← hr]
    exact ⟨ihr, ihf, ihs.trans hs, ihe.trans he⟩

theorem failure {p : Plan α} (hp : p.FilesOnly P) {s : Session} {f : Failure}
    (h : (p.perform runner s).1 = .error f) : P f := by
  induction hp generalizing s with
  | ok a => cases h
  | error hf =>
    cases h
    exact hf
  | print text hn ih => exact ih h
  | reportTime label hn ih => exact ih h
  | call c hn ih => exact ih _ h

end FilesOnly

end Plan

end BootMedia
