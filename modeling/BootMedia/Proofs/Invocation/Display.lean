import BootMedia.Emulator.Launch
import BootMedia.Proofs.Path
import BootMedia.Proofs.Text.Quoted
import BootMedia.Toolchain

namespace BootMedia

open Text

namespace Invocation

variable {i j : Invocation} {args args' : List String} {x x' : String}

def spaced (args : List String) : String := String.join (args.map (" " ++ ·))

theorem spaced_cons (a : String) (args : List String) :
    spaced (a :: args) = " " ++ a ++ spaced args := by
  simp [spaced]

theorem spaced_singleton (a : String) : spaced [a] = " " ++ a := by
  simp [spaced]

theorem spaced_append (args args' : List String) :
    spaced (args ++ args') = spaced args ++ spaced args' := by
  simp [spaced]

theorem toList_spaced (args : List String) :
    (spaced args).toList = [' '].intercalate ([] :: args.map String.toList) := by
  induction args with
  | nil => rfl
  | cons a args ih =>
    rw [spaced_cons, String.toList_append, String.toList_append, ih]
    cases args <;> simp [List.intercalate]

theorem spaced_inj (h : ∀ a ∈ args, ' ' ∉ a.toList) (h' : ∀ a ∈ args', ' ' ∉ a.toList)
    (he : spaced args = spaced args') : args = args' := by
  have hsplit : ∀ {args : List String}, (∀ a ∈ args, ' ' ∉ a.toList) →
      (spaced args).toList.splitOn ' ' = [] :: args.map String.toList := by
    intro args h
    rw [toList_spaced, List.splitOn_intercalate _ (by simpa using h) (by simp)]
  have hl := hsplit h
  rw [he, hsplit h', List.cons.injEq] at hl
  exact (List.map_injective_iff.2 (fun _ _ ↦ String.toList_injective) hl.2).symm

theorem display_eq (i : Invocation) :
    i.display = String.join (i.changes.map (·.display)) ++ (i.program ++ spaced i.arguments) :=
  String.append_assoc

theorem takeWhile_display (hc : i.changes = []) (hs : ' ' ∉ i.program.toList) :
    i.display.toList.takeWhile (· ≠ ' ') = i.program.toList := by
  have hprogram : ∀ c ∈ i.program.toList, decide (c ≠ ' ') = true := by
    intro c hc
    have hne : c ≠ ' ' := ne_of_mem_of_not_mem hc hs
    simp [hne]
  have hd : i.display.toList = i.program.toList ++ (spaced i.arguments).toList := by
    simp [display_eq, hc]
  rw [hd, List.takeWhile_append_of_pos hprogram]
  cases i.arguments <;> simp [spaced]

theorem join_display_inj {cs cs' : List EnvChange}
    (hk : cs.map (fun c ↦ (c.name, c.value?.isSome)) = cs'.map fun c ↦ (c.name, c.value?.isSome))
    (h : String.join (cs.map (·.display)) ++ x = String.join (cs'.map (·.display)) ++ x') :
    cs = cs' ∧ x = x' := by
  induction cs generalizing cs' with
  | nil =>
    obtain rfl : cs' = [] := by simpa using hk.symm
    simpa using h
  | cons c cs ih =>
    cases cs' with
    | nil => simp at hk
    | cons c' cs' =>
      rw [List.map_cons, List.map_cons, List.cons.injEq, Prod.mk.injEq] at hk
      obtain ⟨⟨hname, hset⟩, hk⟩ := hk
      rw [List.map_cons, List.map_cons, String.join_cons, String.join_cons, String.append_assoc,
        String.append_assoc] at h
      cases c with
      | remove name =>
        cases c' with
        | set name' value' => simp [EnvChange.value?] at hset
        | remove name' =>
          obtain rfl : name = name' := hname
          obtain ⟨rfl, rfl⟩ := ih hk (by simpa [EnvChange.display] using h)
          exact ⟨rfl, rfl⟩
      | set name value =>
        cases c' with
        | remove name' => simp [EnvChange.value?] at hset
        | set name' value' =>
          obtain rfl : name = name' := hname
          have hd : ∀ v, (EnvChange.set name v).display = name ++ ("=" ++ (quoted v ++ " ")) := by
            simp [EnvChange.display, String.append_assoc]
          simp only [hd, String.append_assoc, String.append_right_inj] at h
          obtain ⟨rfl, hrest⟩ := quoted_append_inj h
          obtain ⟨rfl, rfl⟩ := ih hk ((String.append_right_inj _).1 hrest)
          exact ⟨rfl, rfl⟩

end Invocation

theorem changes_buildInvocation (t : Target) (flags : Flags) (l : Layout) :
    (buildInvocation t flags l).changes =
      [.remove buildFlagsVariable, .set flagsVariable "",
        .set encodedFlagsVariable flags.encode, .set targetPathVariable l.root.text] := rfl

theorem space_not_mem_arguments_buildInvocation (t : Target) (flags : Flags) (l : Layout) :
    ∀ a ∈ (buildInvocation t flags l).arguments, ' ' ∉ a.toList := by
  have h : ∀ (a : Architecture) (c : Configuration),
      ∀ s ∈ c.mode.arguments ++ ["--target", a.compiled ++ tripleEnd] ++ ["--package", package],
        ' ' ∉ s.toList := by
    intro a c
    cases a <;> cases c <;> decide
  exact h t.architecture t.configuration

theorem buildInvocation_eq_of_display_eq {t t' : Target} {flags flags' : Flags} {l l' : Layout}
    (h : (buildInvocation t flags l).display = (buildInvocation t' flags' l').display) :
    buildInvocation t flags l = buildInvocation t' flags' l' := by
  rw [Invocation.display_eq, Invocation.display_eq] at h
  obtain ⟨hchanges, h⟩ := Invocation.join_display_inj (by rfl) h
  have harguments := Invocation.spaced_inj (space_not_mem_arguments_buildInvocation t flags l)
    (space_not_mem_arguments_buildInvocation t' flags' l') ((String.append_right_inj _).1 h)
  have hroot : l.root = l'.root := by
    have hlast := congrArg List.getLast? hchanges
    rw [changes_buildInvocation, changes_buildInvocation] at hlast
    exact congrArg Path.mk (EnvChange.set.inj (Option.some.inj hlast)).2
  calc buildInvocation t flags l
      = ⟨toolchain, (buildInvocation t flags l).arguments, (buildInvocation t flags l).changes,
          some l.root⟩ := rfl
    _ = ⟨toolchain, (buildInvocation t' flags' l').arguments,
          (buildInvocation t' flags' l').changes, some l'.root⟩ := by
        rw [harguments, hchanges, hroot]
    _ = buildInvocation t' flags' l' := rfl

/-- `f` puts its text in a fixed number of places. -/
def Repeats (f : String → String) : Prop := ∃ k n, ∀ s, (f s).length = k * s.length + n

namespace Repeats

variable {f g : String → String}

theorem const (s : String) : Repeats fun _ ↦ s := ⟨0, s.length, by simp⟩

theorem id : Repeats fun s ↦ s := ⟨1, 0, by simp⟩

theorem append (hf : Repeats f) (hg : Repeats g) : Repeats fun s ↦ f s ++ g s := by
  obtain ⟨k, n, hf⟩ := hf
  obtain ⟨k', n', hg⟩ := hg
  refine ⟨k + k', n + n', fun s ↦ ?_⟩
  rw [String.length_append, hf, hg, Nat.add_mul]
  omega

theorem spaced (args : List (String → String)) (h : ∀ f ∈ args, Repeats f) :
    Repeats fun s ↦ Invocation.spaced (args.map fun f ↦ f s) := by
  induction args with
  | nil => exact const ""
  | cons f args ih =>
    obtain ⟨hf, h⟩ := List.forall_mem_cons.1 h
    simp only [List.map_cons, Invocation.spaced_cons]
    exact ((const " ").append hf).append (ih h)

/-- Behind a beginning that is known, the text can be seen: the two are of one length. -/
theorem injective (hf : Repeats f) (lead : String) :
    Function.Injective fun s ↦ lead ++ (s ++ f s) := by
  intro s s' h
  obtain ⟨k, n, hf⟩ := hf
  have h : s.toList ++ (f s).toList = s'.toList ++ (f s').toList := by
    have hs := (String.append_right_inj _).1 h
    rw [← String.toList_append, hs, String.toList_append]
  have hl := congrArg List.length h
  simp only [List.length_append, String.length_toList, hf] at hl
  have hk : (k + 1) * s.length = (k + 1) * s'.length := by
    rw [Nat.succ_mul, Nat.succ_mul]
    omega
  have hlength : s.toList.length = s'.toList.length := Nat.eq_of_mul_eq_mul_left k.succ_pos hk
  exact String.toList_injective (List.append_inj h hlength).1

end Repeats

theorem Drive.exists_write_append (os : Drive.Options) (key : String) :
    ∃ lead, ∀ value, Drive.write (os ++ [(key, value)]) = lead ++ value := by
  cases os with
  | nil => exact ⟨key ++ "=", fun value ↦ by simp [Drive.write]⟩
  | cons o os =>
    refine ⟨Drive.write (o :: os) ++ "," ++ (key ++ "="), fun value ↦ ?_⟩
    rw [Drive.write, List.map_append, String.intercalate_append_of_ne_nil (by simp) (by simp)]
    simp [Drive.write, String.append_assoc]

/-- The arguments of the emulator in a workspace that puts `stem` before the names of its
directories. -/
def stemArguments (a : Architecture) (stem : String) : List String :=
  sharedArguments ⟨stem ++ Layout.mediaName⟩ ++ a.machineFlags ++
    a.firmware.arguments ⟨stem ++ Layout.firmwareName⟩ ++ a.exitFlags

theorem exists_stemArguments_eq (a : Architecture) (l : Layout) :
    ∃ stem, emulatorArguments a l = stemArguments a stem := by
  obtain ⟨stem, hstem⟩ := l.root.exists_stem
  refine ⟨stem, ?_⟩
  rw [emulatorArguments, stemArguments, Layout.mediaDirectory, Layout.firmwareDirectory,
    hstem _ (by decide), hstem _ (by decide)]

theorem text_image (stem : String) {image : String} (h : Path.IsName image) :
    ((⟨stem ++ Layout.firmwareName⟩ : Path) / image).text =
      stem ++ (Layout.firmwareName ++ "/" ++ image) := by
  have hname : Path.IsName Layout.firmwareName := by decide
  rw [Path.text_join (by simp [hname.1]) h, Path.endsInSlash_append hname]
  simp [String.append_assoc]

theorem repeats_drive (os : Drive.Options) {image : String} (h : Path.IsName image) :
    Repeats fun stem ↦
      Drive.write (os ++ [("file", ((⟨stem ++ Layout.firmwareName⟩ : Path) / image).text)]) := by
  obtain ⟨lead, hlead⟩ := Drive.exists_write_append os "file"
  simp only [hlead, text_image _ h]
  exact (Repeats.const _).append (Repeats.id.append (.const _))

theorem repeats_firmware {firmware : Firmware} (h : ∀ image ∈ firmware.files, Path.IsName image) :
    Repeats fun stem ↦ Invocation.spaced (firmware.arguments ⟨stem ++ Layout.firmwareName⟩) := by
  cases firmware with
  | flash code vars =>
    have hcode := repeats_drive [("if", "pflash"), ("format", "raw"), ("readonly", "on")]
      (h code (by simp [Firmware.files]))
    have hvars := repeats_drive [("if", "pflash"), ("format", "raw")]
      (h vars (by simp [Firmware.files]))
    exact .spaced [fun _ ↦ "-drive", _, fun _ ↦ "-drive", _]
      (by simpa [Repeats.const] using ⟨hcode, hvars⟩)
  | bios image =>
    have himage : Repeats fun stem ↦
        ((⟨stem ++ Layout.firmwareName⟩ : Path) / image).text := by
      simp only [text_image _ (h image (by simp [Firmware.files]))]
      exact Repeats.id.append (.const _)
    exact .spaced [fun _ ↦ "-bios", _] (by simpa [Repeats.const] using himage)

theorem isName_firmware (a : Architecture) : ∀ image ∈ a.firmware.files, Path.IsName image := by
  cases a <;> decide

theorem exists_spaced_stemArguments (a : Architecture) :
    ∃ lead tail, Repeats tail ∧
      ∀ stem, Invocation.spaced (stemArguments a stem) = lead ++ (stem ++ tail stem) := by
  obtain ⟨file, hfile⟩ := Drive.exists_write_append [("format", "raw")] "file"
  refine ⟨Invocation.spaced ["-nodefaults", "-m", machineMemory, "-drive"] ++ " " ++ file ++
      "fat:rw:", fun stem ↦ Layout.mediaName ++
      Invocation.spaced ["-serial", "stdio", "-monitor", "vc:1024x768"] ++
      Invocation.spaced a.machineFlags ++
      Invocation.spaced (a.firmware.arguments ⟨stem ++ Layout.firmwareName⟩) ++
      Invocation.spaced a.exitFlags, ?_, fun stem ↦ ?_⟩
  · exact ((Repeats.const _).append (repeats_firmware (isName_firmware a))).append (.const _)
  · have hshared : sharedArguments ⟨stem ++ Layout.mediaName⟩ =
        ["-nodefaults", "-m", machineMemory, "-drive"] ++
        [Drive.write ([("format", "raw")] ++
          [("file", "fat:rw:" ++ (stem ++ Layout.mediaName))])] ++
        ["-serial", "stdio", "-monitor", "vc:1024x768"] := rfl
    rw [stemArguments, hshared, hfile]
    simp only [Invocation.spaced_append, Invocation.spaced_singleton, String.append_assoc]

theorem architecture_eq_of_display_eq {t t' : Target}
    (h : (launchInvocation t).display = (launchInvocation t').display) :
    t.architecture = t'.architecture := by
  have hspace : ∀ a : Architecture, ' ' ∉ (emulatorLead ++ a.emulated).toList := by
    intro a
    cases a <;> decide
  have hprogram := Invocation.takeWhile_display (i := launchInvocation t) rfl (hspace _)
  rw [h, Invocation.takeWhile_display (i := launchInvocation t') rfl (hspace _)] at hprogram
  have hinjective : ∀ a b : Architecture, (emulatorLead ++ a.emulated).toList =
      (emulatorLead ++ b.emulated).toList → a = b := by
    intro a b
    cases a <;> cases b <;> decide
  exact hinjective _ _ hprogram.symm

theorem launchInvocation_eq_of_display_eq {t t' : Target}
    (h : (launchInvocation t).display = (launchInvocation t').display) :
    launchInvocation t = launchInvocation t' := by
  have ha := architecture_eq_of_display_eq h
  obtain ⟨stem, hstem⟩ := exists_stemArguments_eq t.architecture t.layout
  obtain ⟨stem', hstem'⟩ := exists_stemArguments_eq t'.architecture t'.layout
  rw [← ha] at hstem'
  obtain ⟨lead, tail, htail, hprinted⟩ := exists_spaced_stemArguments t.architecture
  have hl : launchInvocation t =
      ⟨emulatorLead ++ t.architecture.emulated, stemArguments t.architecture stem, [], none⟩ := by
    rw [← hstem]
    rfl
  have hl' : launchInvocation t' =
      ⟨emulatorLead ++ t.architecture.emulated, stemArguments t.architecture stem', [], none⟩ := by
    rw [← hstem', ha]
    rfl
  rw [hl, hl', Invocation.display_eq, Invocation.display_eq] at h
  have hs := (String.append_right_inj _).1 ((String.append_right_inj _).1 h)
  rw [hprinted, hprinted] at hs
  rw [hl, hl', htail.injective lead hs]

theorem display_buildInvocation_ne (t t' : Target) (flags : Flags) (l : Layout) :
    (buildInvocation t flags l).display ≠ (launchInvocation t').display := by
  have hbuild : (buildInvocation t flags l).display.toList.head? = some 'R' := by
    simp [Invocation.display_eq, changes_buildInvocation, EnvChange.display, flagsVariable]
  have hlaunch : (launchInvocation t').display.toList.head? = some 'q' := by
    have hnone : (launchInvocation t').changes = [] := rfl
    have hprogram : (launchInvocation t').program = emulatorLead ++ t'.architecture.emulated := rfl
    simp [Invocation.display_eq, hnone, hprogram, emulatorLead]
  intro h
  rw [h, hlaunch] at hbuild
  exact absurd hbuild (by decide)

inductive Invocation.OfTarget : Invocation → Prop
  | build (t : Target) (flags : Flags) (l : Layout) : OfTarget (buildInvocation t flags l)
  | launch (t : Target) : OfTarget (launchInvocation t)

/-- What is printed identifies the call: its program, its arguments, and also the variables it
removes and the directory it runs in, neither of which is printed. -/
theorem Invocation.OfTarget.eq_of_display_eq {i j : Invocation} (hi : i.OfTarget) (hj : j.OfTarget)
    (h : i.display = j.display) : i = j := by
  cases hi with
  | build t flags l =>
    cases hj with
    | build t' flags' l' => exact buildInvocation_eq_of_display_eq h
    | launch t' => exact absurd h (display_buildInvocation_ne t t' flags l)
  | launch t =>
    cases hj with
    | build t' flags' l' => exact absurd h.symm (display_buildInvocation_ne t' t flags' l')
    | launch t' => exact launchInvocation_eq_of_display_eq h

theorem Invocation.OfTarget.eq_of_display_eq_slash :
    launchInvocation ⟨.x64, .debug, ⟨⟨"ws"⟩⟩⟩ = launchInvocation ⟨.x64, .release, ⟨⟨"ws/"⟩⟩⟩ :=
  eq_of_display_eq (.launch _) (.launch _) rfl

end BootMedia
