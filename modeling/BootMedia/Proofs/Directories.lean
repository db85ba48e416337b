import BootMedia.Proofs.FileSystem.Call
import BootMedia.Proofs.Plan
import BootMedia.Publish
import Mathlib.Data.List.Induction
import Mathlib.Data.List.Infix

namespace BootMedia

open FileSystem Function

variable {runner : Runner} {s s' : Session} {fs fs' : FileSystem} {root p : Path}
  {ns us ws w xs : List String} {v : List String → Option Node}

/-- What is seen when `ns` and all above them, up to `w`, are directories. -/
def withFolders (v : List String → Option Node) (w ns : List String) : List String → Option Node :=
  fun xs ↦ if xs <+: w ++ ns ∧ w.length < xs.length then some .folder else v xs

theorem withFolders_of_above (h : us <+: ns) (hne : us ≠ []) :
    withFolders v w ns (w ++ us) = some .folder := by
  have hlen : w.length < (w ++ us).length := by
    have hpos := List.length_pos_of_ne_nil hne
    rw [List.length_append]
    omega
  exact if_pos ⟨(List.prefix_append_right_inj w).2 h, hlen⟩

theorem withFolders_of_not_above (h : ¬us <+: ns) : withFolders v w ns (w ++ us) = v (w ++ us) :=
  if_neg fun hp ↦ h ((List.prefix_append_right_inj w).1 hp.1)

theorem withFolders_cases (v : List String → Option Node) (w ns xs : List String) :
    withFolders v w ns xs = v xs ∨
      withFolders v w ns xs = some .folder ∧ ∃ us, us <+: ns ∧ us ≠ [] ∧ xs = w ++ us := by
  by_cases hx : xs <+: w ++ ns ∧ w.length < xs.length
  · obtain ⟨habove, hlen⟩ := hx
    obtain ⟨us, rfl⟩ : w <+: xs :=
      List.prefix_of_prefix_length_le (List.prefix_append w ns) habove hlen.le
    refine .inr ⟨if_pos ⟨habove, hlen⟩, us, (List.prefix_append_right_inj w).1 habove, ?_, rfl⟩
    rintro rfl
    simp at hlen
  · exact .inl (if_neg hx)

theorem not_prefix_append_singleton (ns : List String) (name : String) : ¬ns ++ [name] <+: ns := by
  intro h
  have hlen := h.length_le
  rw [List.length_append, List.length_singleton] at hlen
  omega

theorem withFolders_withFolders {ms : List String} (h : ms <+: ns) :
    withFolders (withFolders v w ms) w ns = withFolders v w ns := by
  funext xs
  by_cases hx : xs <+: w ++ ms ∧ w.length < xs.length
  · have hx' : xs <+: w ++ ns ∧ w.length < xs.length :=
      ⟨hx.1.trans ((List.prefix_append_right_inj w).2 h), hx.2⟩
    simp only [withFolders, hx', and_self, if_true]
  · simp only [withFolders, hx, if_false]

theorem withFolders_append_singleton (v : List String → Option Node) (w ns : List String)
    (name : String) :
    withFolders v w (ns ++ [name]) =
      update (withFolders v w ns) (w ++ (ns ++ [name])) (some .folder) := by
  funext xs
  by_cases hxs : xs = w ++ (ns ++ [name])
  · subst hxs
    rw [update_self]
    exact withFolders_of_above List.prefix_rfl (by simp)
  · have hiff : xs <+: w ++ (ns ++ [name]) ↔ xs <+: w ++ ns := by
      rw [← List.append_assoc] at hxs ⊢
      exact List.prefix_concat_iff.trans (or_iff_right hxs)
    simp only [update_of_ne hxs, withFolders, hiff]

namespace FileSystem.Shows

theorem folder_above (h : fs.Shows root w v) (hv : v ws = some .folder) (hx : xs <+: ws) :
    v xs = some .folder := by
  obtain ⟨d, q, es, hd, hn⟩ := h.exists_folder hv
  obtain ⟨ys, rfl⟩ := hx
  rw [descend_append] at hd
  obtain ⟨i, hi, hj⟩ := Option.bind_eq_some_iff.1 hd
  rw [← h.view, view_eq_folder]
  cases ys with
  | nil =>
    obtain rfl : i = d := by simpa [descend] using hj
    exact ⟨i, q, es, hi, hn⟩
  | cons y ys =>
    obtain ⟨k, hk, -⟩ := Option.bind_eq_some_iff.1 hj
    obtain ⟨q', es', hn', -⟩ := directory_of_child? hk
    exact ⟨i, q', es', hi, hn'⟩

theorem folder_root (h : fs.Shows root w v) : v w = some .folder := by
  obtain ⟨r, -, hd, hw⟩ := h.root
  obtain ⟨q, es, hn⟩ := isDirectoryAt_iff.1 hd
  rw [← h.view, view_eq_folder]
  exact ⟨r, q, es, hw, hn⟩

theorem withFolders_eq_self (h : fs.Shows root w v) (hv : v (w ++ ns) = some .folder) :
    withFolders v w ns = v := by
  funext xs
  rw [withFolders]
  split
  · next hx => exact (h.folder_above hv hx.1).symm
  · rfl

end FileSystem.Shows

def FoldersOrNothing (v : List String → Option Node) (w ns : List String) : Prop :=
  ∀ us, us <+: ns → us ≠ [] → v (w ++ us) = none ∨ v (w ++ us) = some .folder

theorem exists_first_missing (hw : v w = some .folder) (hdirs : FoldersOrNothing v w ns)
    (hv : v (w ++ ns) = none) :
    ∃ us name ms, ns = us ++ name :: ms ∧ v (w ++ us) = some .folder ∧
      v (w ++ us ++ [name]) = none := by
  induction ns generalizing w with
  | nil =>
    rw [List.append_nil, hw] at hv
    cases hv
  | cons n ns ih =>
    rcases hdirs [n] ⟨ns, rfl⟩ (by simp) with hn | hn
    · exact ⟨[], n, ns, rfl, by simpa using hw, by simpa using hn⟩
    · have hdirs' : FoldersOrNothing v (w ++ [n]) ns := fun us hus hne ↦ by
        have := hdirs (n :: us) ((List.prefix_cons_inj n).2 hus) (by simp)
        simpa using this
      obtain ⟨us, name, ms, rfl, hu, hm⟩ := ih hn hdirs' (by simpa using hv)
      exact ⟨n :: us, name, ms, rfl, by simpa using hu, by simpa using hm⟩

theorem FileSystem.Shows.ensureDirectory_withFolders {name : String} (h : fs.Shows root w v)
    (hp : p.IsBelow root (us ++ [name])) (hns : ∀ n ∈ us ++ [name], IsEntryName n)
    (hu : v (w ++ us) = some .folder)
    (hv : v (w ++ (us ++ [name])) = none ∨ v (w ++ (us ++ [name])) = some .folder) :
    ∃ fs', fs.ensureDirectory p = .ok fs' ∧
      fs'.Shows root w (withFolders v w (us ++ [name])) := by
  rcases hv with hv | hv
  · obtain ⟨fs', hf, hs⟩ := h.ensureDirectory_of_vacant hp hns rfl hu hv
    refine ⟨fs', hf, ?_⟩
    rwa [withFolders_append_singleton, h.withFolders_eq_self hu]
  · refine ⟨fs, h.ensureDirectory_of_folder hp hns hv, ?_⟩
    rwa [h.withFolders_eq_self hv]

theorem FileSystem.Shows.ensureDirectory_of_missing_above {name : String} (h : fs.Shows root w v)
    (hp : p.IsBelow root (ns ++ [name])) (hns : ∀ n ∈ ns ++ [name], IsEntryName n)
    (hdirs : FoldersOrNothing v w ns) (hn : v (w ++ ns) = none) :
    fs.ensureDirectory p = .error .notFound := by
  obtain ⟨us, m, ms, rfl, hu, hm⟩ := exists_first_missing h.folder_root hdirs hn
  obtain ⟨k, ks, hk⟩ := List.exists_cons_of_ne_nil
    (List.append_ne_nil_of_right_ne_nil ms (List.cons_ne_nil name []))
  have hsplit : us ++ m :: ms ++ [name] = us ++ m :: k :: ks := by
    rw [← hk]
    simp
  exact h.ensureDirectory_of_missing hp hns hsplit hu hm

/-- Paths below `root` of the names `ns`, and of all beginnings of `ns`, the longest first; more may
follow. -/
inductive Ladder (root : Path) : List String → List Path → Prop
  | bottom {p : Path} {name : String} (above : List Path) :
      p.IsBelow root [name] → Ladder root [name] (p :: above)
  | step {p : Path} {name : String} {ns : List String} {ps : List Path} :
      p.IsBelow root (ns ++ [name]) → Ladder root ns ps → Ladder root (ns ++ [name]) (p :: ps)

theorem Ladder.ne_nil {ps : List Path} (h : Ladder root ns ps) : ns ≠ [] := by
  cases h <;> simp

theorem Ladder.exists_isBelow {ps : List Path} (h : Ladder root ns ps) (hu : us <+: ns)
    (hne : us ≠ []) : ∃ p ∈ ps, p.IsBelow root us := by
  induction h with
  | bottom above hp =>
    rcases List.prefix_concat_iff.1 (show us <+: [] ++ [_] from hu) with rfl | hu
    · exact ⟨_, List.mem_cons_self, hp⟩
    · exact absurd (List.prefix_nil.1 hu) hne
  | step hp _ ih =>
    rcases List.prefix_concat_iff.1 hu with rfl | hu
    · exact ⟨_, List.mem_cons_self, hp⟩
    · obtain ⟨q, hq, hbelow⟩ := ih hu
      exact ⟨q, List.mem_cons_of_mem _ hq, hbelow⟩

theorem ladder_beginnings {ds ms : List String} (h : p.IsBelow root (ns ++ ms))
    (hp : p.parts = ds ++ (ns ++ ms)) (hds : Path.plain ds = Path.plain root.names)
    (hne : ns ≠ []) :
    Ladder root ns ((Path.beginnings (ds ++ ns).reverse).map p.withNames) := by
  induction ns using List.reverseRecOn generalizing ms with
  | nil => exact absurd rfl hne
  | append_singleton us n ih =>
    have hn := h.withNames hp hds hne
    rw [← List.append_assoc] at hn ⊢
    rw [Path.beginnings_reverse_append, List.map_cons]
    by_cases hu : us = []
    · subst hu
      exact .bottom _ hn
    · rw [List.append_assoc us] at h hp
      exact .step hn (ih h hp hu)

theorem ladder_climb (h : p.IsBelow root ns) (hne : ns ≠ []) : Ladder root ns p.climb := by
  obtain ⟨us, n, rfl⟩ := List.eq_nil_or_concat' ns |>.resolve_left hne
  obtain ⟨ds, hp, hds⟩ := h.exists_parts_eq
  have hn : p.parts = ds ++ us ++ [n] := by rw [hp, List.append_assoc]
  rw [Path.climb_eq hn]
  by_cases hu : us = []
  · subst hu
    exact .bottom _ h
  · exact .step h (ladder_beginnings h hp hds hu)

namespace Plan

variable {ps : List Path} {fault : Fault}

theorem perform_makeDirectories_of_ok (h : fs.ensureDirectory p = .ok fs') (hs : s.files = fs) :
    (makeDirectories (p :: ps)).perform runner s = (.ok (.ok ()), { s with files := fs' }) := by
  have hc : (FileCall.ensureDirectory p).perform s.files = .ok fs' := by
    rw [FileCall.perform, hs, h]
    rfl
  rw [makeDirectories, perform_attempt_bind, Session.call_of_ok hc]
  rfl

theorem perform_makeDirectories_of_missing (h : fs.ensureDirectory p = .error .notFound)
    (hs : s.files = fs) (habove : (makeDirectories ps).perform runner s = (.ok (.ok ()), s')) :
    (makeDirectories (p :: ps)).perform runner s =
      (.ok (s'.call (.ensureDirectory p)).1, (s'.call (.ensureDirectory p)).2) := by
  have hc : (FileCall.ensureDirectory p).perform s.files = .error ⟨p, .notFound⟩ := by
    rw [FileCall.perform, hs, h]
    rfl
  rw [makeDirectories, perform_attempt_bind, Session.call_of_error hc]
  simp only [if_true]
  rw [perform_bind, habove]
  rfl

/-- Whatever is missing of the directories `ns` is made, and nothing else is changed. -/
theorem perform_makeDirectories (hl : Ladder root ns ps) (hns : ∀ n ∈ ns, IsEntryName n)
    (h : s.files.Shows root w v) (hdirs : FoldersOrNothing v w ns) (runner : Runner) :
    ∃ s', (makeDirectories ps).perform runner s = (.ok (.ok ()), s') ∧
      s'.files.Shows root w (withFolders v w ns) := by
  induction hl with
  | @bottom p name above hp =>
    have hroot : v (w ++ []) = some .folder := by simpa using h.folder_root
    have hv := hdirs [name] List.prefix_rfl (List.cons_ne_nil _ _)
    obtain ⟨fs, hf, hs⟩ := h.ensureDirectory_withFolders hp hns hroot hv
    exact ⟨_, perform_makeDirectories_of_ok hf rfl, hs⟩
  | @step p name ns ps hp hl ih =>
    have hns' : ∀ n ∈ ns, IsEntryName n := fun n hn ↦ hns n (List.mem_append_left _ hn)
    have hdirs' : FoldersOrNothing v w ns :=
      fun us hus ↦ hdirs us (hus.trans (List.prefix_append _ _))
    have hv := hdirs (ns ++ [name]) List.prefix_rfl (by simp)
    rcases hdirs' ns List.prefix_rfl hl.ne_nil with hn | hn
    · -- Something above is missing: it is made first.
      have herr := h.ensureDirectory_of_missing_above hp hns hdirs' hn
      obtain ⟨s', hs', hshow⟩ := ih hns' hdirs'
      have hfolder : withFolders v w ns (w ++ ns) = some .folder :=
        withFolders_of_above List.prefix_rfl hl.ne_nil
      have hv' : withFolders v w ns (w ++ (ns ++ [name])) = none ∨
          withFolders v w ns (w ++ (ns ++ [name])) = some .folder := by
        rwa [withFolders_of_not_above (not_prefix_append_singleton _ _)]
      obtain ⟨fs, hf, hs⟩ := hshow.ensureDirectory_withFolders hp hns hfolder hv'
      have hc : (FileCall.ensureDirectory p).perform s'.files = .ok fs := by
        rw [FileCall.perform, hf]
        rfl
      refine ⟨{ s' with files := fs }, ?_, ?_⟩
      · rw [perform_makeDirectories_of_missing herr rfl hs', Session.call_of_ok hc]
      · rwa [withFolders_withFolders (List.prefix_append _ _)] at hs
    · obtain ⟨fs, hf, hs⟩ := h.ensureDirectory_withFolders hp hns hn hv
      exact ⟨_, perform_makeDirectories_of_ok hf rfl, hs⟩

end Plan

end BootMedia
