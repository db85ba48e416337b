import BootMedia.Emulator.Arguments
import BootMedia.Proofs.Emulator.Drive
import BootMedia.Proofs.Path

namespace BootMedia

def operands (option : String) : List String → List String
  | a :: b :: rest =>
    if a = option then b :: operands option rest else operands option (b :: rest)
  | _ => []

def Firmware.drives (directory : Path) : Firmware → List Drive.Options
  | flash code vars =>
    [[("if", "pflash"), ("format", "raw"), ("readonly", "on"), ("file", (directory / code).text)],
     [("if", "pflash"), ("format", "raw"), ("file", (directory / vars).text)]]
  | bios _ => []

def bootDrives (a : Architecture) (l : Layout) : List Drive.Options :=
  [("format", "raw"), ("file", "fat:rw:" ++ l.mediaDirectory.text)] ::
    a.firmware.drives l.firmwareDirectory

variable {a : Architecture}

theorem operands_eq_nil {option : String} {args : List String} (h : option ∉ args) :
    operands option args = [] := by
  fun_induction operands option args with
  | case1 => exact absurd List.mem_cons_self h
  | case2 _ _ _ _ ih => exact ih fun hmem ↦ h (List.mem_cons_of_mem _ hmem)
  | case3 => rfl

theorem operands_emulatorArguments (a : Architecture) (l : Layout) :
    operands "-drive" (emulatorArguments a l) = (bootDrives a l).map Drive.write := by
  cases a with
  | x86 => rfl
  | x64 => rfl
  | aa64 =>
    have hbios : (l.firmwareDirectory / "QEMU_EFI_aarch64.fd").text ≠ "-drive" := by
      intro h
      have hmem : '.' ∈ (l.firmwareDirectory / "QEMU_EFI_aarch64.fd").text.toList :=
        (Path.mem_join_iff _ (by decide) (by decide)).2 (.inr (by decide))
      rw [h] at hmem
      exact absurd hmem (by decide)
    have hrest : "-drive" ∉ ["-serial", "stdio", "-monitor", "vc:1024x768", "-machine", "virt",
        "-cpu", "cortex-a76", "-bios", (l.firmwareDirectory / "QEMU_EFI_aarch64.fd").text,
        "-semihosting"] := by
      simp [hbios.symm]
    exact congrArg (_ :: ·) (operands_eq_nil hrest)

theorem read_media (l : Layout) :
    Drive.read (Drive.write (Drive.media l.mediaDirectory)) = Drive.media l.mediaDirectory ↔
      ',' ∉ l.root.text.toList := by
  have hcomma : ',' ∈ ("fat:rw:" ++ l.mediaDirectory.text).toList ↔ ',' ∈ l.root.text.toList := by
    rw [String.toList_append, List.mem_append, Layout.mediaDirectory,
      Path.mem_join_iff l.root (by decide) (by decide)]
    simp [Layout.mediaName]
  have hread := Drive.read_write_file_iff [("format", "raw")]
    ("fat:rw:" ++ l.mediaDirectory.text) (by decide) (by simp)
  exact hread.trans (not_congr hcomma)

theorem read_image (l : Layout) (os : Drive.Options) {image : String}
    (himage : image ∈ a.firmware.files)
    (hos : ∀ o ∈ os, '=' ∉ o.1.toList ∧ o.2 ≠ "" ∧ ',' ∉ Drive.field o) :
    Drive.read (Drive.write (os ++ [("file", (l.firmwareDirectory / image).text)])) =
        os ++ [("file", (l.firmwareDirectory / image).text)] ↔
      ',' ∉ l.root.text.toList := by
  obtain ⟨hname, hplain⟩ : Path.IsName image ∧ ',' ∉ image.toList := by
    revert image
    cases a <;> decide
  have hstart := Path.startsAtRoot_of_isName hname
  have hcomma : ',' ∈ (l.firmwareDirectory / image).text.toList ↔ ',' ∈ l.root.text.toList := by
    rw [Path.mem_join_iff _ hstart (by decide), Layout.firmwareDirectory,
      Path.mem_join_iff l.root (by decide) (by decide)]
    simp [Layout.firmwareName, hplain]
  have hread := Drive.read_write_file_iff os _ hos
    (Path.join_ne_empty l.firmwareDirectory hstart hname.1)
  exact hread.trans (not_congr hcomma)

/-- The emulator sees the drives that are meant exactly when no comma is in the root. Only the
firmware of `x86` and `x64` is on drives. -/
theorem read_drives (a : Architecture) (l : Layout) :
    ((operands "-drive" (emulatorArguments a l)).map Drive.read = bootDrives a l ↔
        ',' ∉ l.root.text.toList) ∧
      (a.firmware.drives l.firmwareDirectory ≠ [] ↔ a = .x86 ∨ a = .x64) := by
  constructor
  · have hmedia := read_media l
    rw [operands_emulatorArguments, bootDrives]
    cases hf : a.firmware with
    | bios image =>
      simp only [Firmware.drives, List.map_cons, List.map_nil, List.cons.injEq, and_true]
      exact hmedia
    | flash code vars =>
      have hcodeImage : code ∈ a.firmware.files := by simp [hf, Firmware.files]
      have hvarsImage : vars ∈ a.firmware.files := by simp [hf, Firmware.files]
      have hcode := read_image l [("if", "pflash"), ("format", "raw"), ("readonly", "on")]
        hcodeImage (by decide)
      have hvars := read_image l [("if", "pflash"), ("format", "raw")] hvarsImage (by decide)
      simp only [Firmware.drives, List.map_cons, List.map_nil, List.cons.injEq, and_true]
      constructor
      · rintro ⟨h, -⟩
        exact hmedia.1 h
      · exact fun h ↦ ⟨hmedia.2 h, hcode.2 h, hvars.2 h⟩
  · cases a <;> simp [Firmware.drives, Architecture.firmware]

end BootMedia
