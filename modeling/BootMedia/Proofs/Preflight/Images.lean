import BootMedia.Emulator.Launch
import BootMedia.Preflight.Checks
import BootMedia.Proofs.Emulator.Drive
import BootMedia.Proofs.Path

namespace BootMedia

def Text.after? (mark : List Char) : List Char → Option (List Char)
  | [] => none
  | c :: cs =>
    if mark.isPrefixOf (c :: cs) then some ((c :: cs).drop mark.length) else after? mark cs

namespace Preflight

def flashImage? (operand : String) : Option Path :=
  if "if=pflash".toList.isPrefixOf operand.toList then
    (Text.after? "file=".toList operand.toList).map fun file ↦ ⟨.ofList file⟩
  else none

/-- The firmware images that the arguments of the emulator name. -/
def namedImages : List String → List Path
  | option :: operand :: rest =>
    if option = "-bios" then ⟨operand⟩ :: namedImages rest
    else if option = "-drive" then (flashImage? operand).toList ++ namedImages rest
    else namedImages (operand :: rest)
  | _ => []

variable {options rest : List String}

theorem flashImage?_media (directory : Path) :
    flashImage? (Drive.write (Drive.media directory)) = none := by
  have h : (Drive.write (Drive.media directory)).toList =
      "format=raw,file=fat:rw:".toList ++ directory.text.toList := by
    simp [Drive.toList_write, Drive.media, Drive.field]
  rw [flashImage?, h]
  rfl

theorem flashImage?_eq_some {operand : String} {image : Path} (lead : String)
    (h : operand.toList = lead.toList ++ image.text.toList)
    (hlead : ∀ cs, "if=pflash".toList.isPrefixOf (lead.toList ++ cs) ∧
      Text.after? "file=".toList (lead.toList ++ cs) = some cs) :
    flashImage? operand = some image := by
  obtain ⟨hflash, hfile⟩ := hlead image.text.toList
  rw [flashImage?, h, if_pos hflash, hfile, Option.map_some, String.ofList_toList]

theorem flashImage?_code (image : Path) :
    flashImage? (Drive.write (Drive.code image)) = some image := by
  apply flashImage?_eq_some "if=pflash,format=raw,readonly=on,file="
  · simp [Drive.toList_write, Drive.code, Drive.field]
  · exact fun cs ↦ ⟨rfl, rfl⟩

theorem flashImage?_vars (image : Path) :
    flashImage? (Drive.write (Drive.vars image)) = some image := by
  apply flashImage?_eq_some "if=pflash,format=raw,file="
  · simp [Drive.toList_write, Drive.vars, Drive.field]
  · exact fun cs ↦ ⟨rfl, rfl⟩

theorem namedImages_append (h : ∀ o ∈ options, o ≠ "-bios" ∧ o ≠ "-drive") :
    namedImages (options ++ rest) = namedImages rest := by
  -- An operand of such an option is one of `options` itself, and no option that names an image.
  induction options with
  | nil => rfl
  | cons o options ih =>
    obtain ⟨⟨hbios, hdrive⟩, h⟩ := List.forall_mem_cons.1 h
    rw [← ih h, List.cons_append]
    cases options ++ rest with
    | nil => rfl
    | cons operand args => rw [namedImages, if_neg hbios, if_neg hdrive]

theorem namedImages_sharedArguments (media : Path) (rest : List String) :
    namedImages (sharedArguments media ++ rest) = namedImages rest := by
  have hlead : ∀ o ∈ ["-nodefaults", "-m", machineMemory], o ≠ "-bios" ∧ o ≠ "-drive" := by decide
  have htail : ∀ o ∈ ["-serial", "stdio", "-monitor", "vc:1024x768"],
      o ≠ "-bios" ∧ o ≠ "-drive" := by decide
  have hdrive : namedImages (["-drive", Drive.write (Drive.media media)] ++
      (["-serial", "stdio", "-monitor", "vc:1024x768"] ++ rest)) =
        (flashImage? (Drive.write (Drive.media media))).toList ++
          namedImages (["-serial", "stdio", "-monitor", "vc:1024x768"] ++ rest) := rfl
  calc namedImages (sharedArguments media ++ rest)
      = namedImages (["-nodefaults", "-m", machineMemory] ++
          (["-drive", Drive.write (Drive.media media)] ++
            (["-serial", "stdio", "-monitor", "vc:1024x768"] ++ rest))) := rfl
    _ = namedImages rest := by
      rw [namedImages_append hlead, hdrive, flashImage?_media, namedImages_append htail]
      rfl

theorem namedImages_firmware (f : Firmware) (directory : Path) (rest : List String) :
    namedImages (f.arguments directory ++ rest) =
      f.files.map (directory / ·) ++ namedImages rest := by
  cases f with
  | flash code vars =>
    have h : namedImages ((Firmware.flash code vars).arguments directory ++ rest) =
        (flashImage? (Drive.write (Drive.code (directory / code)))).toList ++
          ((flashImage? (Drive.write (Drive.vars (directory / vars)))).toList ++
            namedImages rest) := rfl
    rw [h, flashImage?_code, flashImage?_vars]
    rfl
  | bios image => rfl

theorem namedImages_emulatorArguments (a : Architecture) (l : Layout) :
    namedImages (emulatorArguments a l) = a.firmware.files.map (l.firmwareDirectory / ·) := by
  have hmachine : ∀ o ∈ a.machineFlags, o ≠ "-bios" ∧ o ≠ "-drive" := by
    cases a <;> decide
  have hexit : namedImages a.exitFlags = [] := by
    cases a <;> rfl
  rw [emulatorArguments, List.append_assoc, List.append_assoc, namedImages_sharedArguments,
    namedImages_append hmachine, namedImages_firmware, hexit, List.append_nil]

theorem fileName_image (a : Architecture) (l : Layout) :
    (a.firmware.files.map (l.firmwareDirectory / ·)).map (·.fileName) = a.firmware.files := by
  have hplain : ∀ image ∈ a.firmware.files, Path.IsName image := by
    cases a <;> decide
  have hne : l.firmwareDirectory.text ≠ "" :=
    Path.join_ne_empty l.root (by decide) (by decide)
  rw [List.map_map]
  conv_rhs => rw [← List.map_id a.firmware.files]
  apply List.map_congr_left
  intro image himage
  simp [Path.fileName, Path.names_join hne (hplain image himage)]

variable (fs : FileSystem) (account : Path) (e : Environment) (given : Option String)

theorem toolCheck_name (t : Tool) :
    (toolCheck fs account e given t).name = t.program ++ " tool" := by
  rw [toolCheck]
  split <;> rfl

theorem toolCheck_passed (t : Tool) :
    (toolCheck fs account e given t).passed = (found? fs account e given t.program).isSome := by
  rw [toolCheck]
  cases found? fs account e given t.program <;> rfl

theorem firmwareCheck_name (t : Target) (l : Layout) (image : Path) :
    (firmwareCheck fs t l image).name = image.fileName ++ " firmware" := by
  rw [firmwareCheck]
  split <;> rfl

theorem firmwareCheck_passed (t : Target) (l : Layout) (image : Path) :
    (firmwareCheck fs t l image).passed = fs.isFile image := by
  rw [firmwareCheck]
  split <;> simp_all [Check.pass, Check.fail]

/-- What is checked is what the invocation uses: its program and, for a run, the images that its
arguments name, each under its own name and in their order. -/
theorem report_of_invocation (a : Architecture) (c : Configuration) (l : Layout) (flags : Flags) :
    let t : Target := ⟨a, c, l⟩
    let run := launchInvocation t
    let build := buildInvocation t flags l
    let images := namedImages run.arguments
    let checks (action : Action) :=
      (report fs account e given t action l).checks.map fun c ↦ (c.name, c.passed)
    (checks .run = (run.program ++ " tool", (found? fs account e given run.program).isSome) ::
        images.map fun image ↦ (image.fileName ++ " firmware", fs.isFile image)) ∧
      images.map (·.fileName) = a.firmware.files ∧
      ((report fs account e given t .run l).isOk ↔
        (found? fs account e given run.program).isSome ∧ ∀ image ∈ images, fs.isFile image) ∧
      checks .build =
        [(build.program ++ " tool", (found? fs account e given build.program).isSome)] ∧
      ((report fs account e given t .build l).isOk ↔
        (found? fs account e given build.program).isSome) := by
  intro t run build images checks
  have himages : images = t.firmwareImages l := namedImages_emulatorArguments a l
  refine ⟨?_, ?_, ?_, ?_, ?_⟩
  · rw [himages]
    simp only [checks, report, firmwareChecks, List.map_cons, List.map_map, toolCheck_name,
      toolCheck_passed]
    congr 1
    apply List.map_congr_left
    intro image _
    exact congrArg₂ Prod.mk (firmwareCheck_name fs t l image) (firmwareCheck_passed fs t l image)
  · rw [himages]
    exact fileName_image a l
  · rw [himages]
    simp only [report, firmwareChecks, Report.isOk, List.all_cons, List.all_map, Bool.and_eq_true,
      toolCheck_passed, List.all_eq_true, Function.comp_apply, firmwareCheck_passed]
    rfl
  · simp only [checks, report, firmwareChecks, List.map_cons, List.map_nil, toolCheck_name,
      toolCheck_passed]
    rfl
  · simp only [report, firmwareChecks, Report.isOk, List.all_cons, List.all_nil, Bool.and_true,
      toolCheck_passed]
    rfl

end Preflight

end BootMedia
