import BootMedia.Host.Program
import BootMedia.Proofs.Host.Start
import BootMedia.Proofs.Invocation.Hermetic
import BootMedia.Proofs.Pipeline
import BootMedia.Proofs.Preflight.Images

namespace BootMedia

open FileSystem Text.Octets

namespace Preflight

variable {fs inside : FileSystem} {e : Environment} {home account : Path} {program entry : String}
  {entries : List String} {t : Target} {action : Action} {l : Layout} {r : Request} {p : Path}

def programs : List String :=
  toolchain :: (Choice.all : List Architecture).map fun a ↦ emulatorLead ++ a.emulated

theorem program_mem_programs (t : Target) (action : Action) :
    (tool t action).program ∈ programs := by
  cases action with
  | build => exact List.mem_cons_self
  | run => exact List.mem_cons_of_mem _ (List.mem_map_of_mem (Choice.complete t.architecture))

theorem isName_program (t : Target) (action : Action) : Path.IsName (tool t action).program := by
  have h : ∀ s ∈ programs, Path.IsName s := by decide
  exact h _ (program_mem_programs t action)

theorem size_program_le (t : Target) (action : Action) :
    (tool t action).program.utf8ByteSize ≤ nameLimit := by
  have h : ∀ s ∈ programs, s.utf8ByteSize ≤ nameLimit := by decide
  exact h _ (program_mem_programs t action)

theorem program_invocation (r : Request) (l : Layout) :
    (r.invocation l).program = (tool r.target r.action).program := by
  obtain ⟨action, t, flags⟩ := r
  cases action <;> rfl

theorem program_toCommand (r : Request) (l : Layout) :
    (r.invocation l).toCommand.program = (tool r.target r.action).program := by
  have h : ∀ s ∈ programs, Command.handed s = s := by decide
  rw [Invocation.toCommand, program_invocation]
  exact h _ (program_mem_programs r.target r.action)

theorem last?_searchPath (r : Request) (l : Layout) :
    EnvChange.last? (r.invocation l).changes searchPathVariable = none := by
  obtain ⟨action, t, flags⟩ := r
  cases action with
  | build =>
    have hchanges : (Request.invocation ⟨.build, t, flags⟩ l).changes =
        Invocation.hermeticChanges flags l := by
      rw [Request.invocation, buildInvocation, Invocation.hermetic_eq]
      rfl
    rw [hchanges, Invocation.last?_hermeticChanges_eq_none]
    decide
  | run => rfl

theorem get?_searchPath (r : Request) (l : Layout) (e : Environment) :
    ((r.invocation l).toCommand.childEnvironment e).get? searchPathVariable =
      e.get? searchPathVariable := by
  rw [Invocation.get?_childEnvironment, last?_searchPath]
  rfl

theorem findsLate_invocation (r : Request) (l : Layout) :
    Host.findsLate (r.invocation l).toCommand = false := by
  have hnone : (Command.entries (r.invocation l).changes).lookup searchPathVariable = none := by
    rw [Command.lookup_entries, last?_searchPath]
    rfl
  rw [List.lookup_eq_none_iff] at hnone
  rw [Host.findsLate, Bool.and_eq_false_iff, List.any_eq_false]
  right
  intro v hv hpath
  have hne := hnone v hv
  rw [beq_iff_eq.1 hpath] at hne
  simp at hne

/-- The entries of a search path that are looked at, up to the one in which there is the tool. -/
def visited (fs : FileSystem) (home : Path) (program : String) : List String → List String
  | [] => []
  | entry :: rest =>
    if fs.isExecutable (ToolSearch.expand home entry / program) then [entry]
    else entry :: visited fs home program rest

/-- The entry means one directory to a check made in `fs` and to a child that begins `inside`. -/
def MeansSame (fs inside : FileSystem) (entry : String) : Prop :=
  Path.startsAtRoot entry ∨
    inside.here = fs.here ∧ (entry.toList.splitOn '/').head? ≠ some ['~']

theorem exists_visited
    (h : (entries.map fun entry ↦ ToolSearch.expand home entry / program).find? fs.isExecutable =
      some p) :
    ∃ before entry after, entries = before ++ entry :: after ∧
      visited fs home program entries = before ++ [entry] ∧
      p = ToolSearch.expand home entry / program ∧ fs.isExecutable p ∧
      ∀ d ∈ before, fs.isExecutable (ToolSearch.expand home d / program) = false := by
  induction entries with
  | nil => cases h
  | cons d entries ih =>
    rw [List.map_cons, List.find?_cons] at h
    rw [visited]
    cases hx : fs.isExecutable (ToolSearch.expand home d / program) with
    | true =>
      rw [hx] at h
      cases h
      exact ⟨[], d, entries, rfl, rfl, rfl, hx, nofun⟩
    | false =>
      rw [hx] at h
      obtain ⟨before, entry, after, rfl, hvisited, hp, hfound, hbefore⟩ := ih h
      refine ⟨d :: before, entry, after, rfl, ?_, hp, hfound, List.forall_mem_cons.2 ⟨hx, hbefore⟩⟩
      rw [hvisited]
      rfl

theorem MeansSame.expand (h : MeansSame fs inside entry) (home : Path) :
    ToolSearch.expand home entry = ⟨entry⟩ := by
  rw [ToolSearch.expand, if_neg]
  rcases h with h | ⟨-, h⟩
  · simp [h]
  · simp [h]

theorem MeansSame.resolve (h : MeansSame fs inside entry) (hnodes : inside.nodes = fs.nodes)
    (hname : Path.IsName program) (home : Path)
    (haccepted : (Path.mk (Host.pathIn entry program)).refusal? = none) :
    inside.resolve ⟨Host.pathIn entry program⟩ =
      fs.resolve (ToolSearch.expand home entry / program) := by
  rw [h.expand]
  exact Host.resolve_pathIn hname hnodes (h.imp_right And.left) haccepted

/-- What is relied on in the system: it runs any executable file, it takes the command, and where
an entry leads nowhere it goes on with the next one. -/
structure Relied (launch : Launcher) (c : Command) (inside : FileSystem) (entries : List String) :
    Prop where
  runs : ∀ p u (w : World), w.files.isExecutable p → ∃ result, launch p u w = .ok result
  accepted : c.isRefused = false
  fits : Host.isOversized c = false
  passes : ∀ entry ∈ entries, ∀ e,
    inside.resolve ⟨Host.pathIn entry c.program⟩ = .error e → Host.IsPassed e

variable {launch : Launcher} {c : Command}

theorem Relied.refusal? (h : Relied launch c inside entries) (hc : c.program ≠ "")
    (hentry : entry ∈ entries) : (Path.mk (Host.pathIn entry c.program)).refusal? = none := by
  cases hp : (Path.mk (Host.pathIn entry c.program)).refusal? with
  | none => rfl
  | some e =>
    -- A path that cannot be walked leads nowhere, by an error that ends the search.
    have hne : Host.pathIn entry c.program ≠ "" := by
      rw [Host.pathIn]
      split <;> simp [hc]
    have hpassed := h.passes entry hentry e (resolve_of_refusal hp)
    rcases Path.refusal?_eq_some hp with rfl | rfl | ⟨-, he⟩
    · simp [Host.IsPassed] at hpassed
    · simp [Host.IsPassed] at hpassed
    · exact absurd he hne

theorem Relied.size_le (h : Relied launch c inside entries) (hc : c.program ≠ "")
    (hentry : entry ∈ entries) : (Host.pathIn entry c.program).utf8ByteSize ≤ pathLimit :=
  (Path.refusal?_eq_none.1 (h.refusal? hc hentry)).2.2

theorem exists_of_toolCheck_passed {i : Tool} (h : (toolCheck fs account e none i).passed) :
    ∃ searchPath p, e.get? searchPathVariable = some searchPath ∧
      ToolSearch.find? fs (ToolSearch.home account e) searchPath i.program = some p ∧
      toolCheck fs account e none i = .pass (i.program ++ " tool")
        ("Found at " ++ p.text ++ " (" ++ i.purpose ++ ")") := by
  rw [toolCheck_passed] at h
  obtain ⟨p, hp⟩ := Option.isSome_iff_exists.1 h
  obtain ⟨searchPath, hpath, hfind⟩ := Option.bind_eq_some_iff.1 hp
  exact ⟨searchPath, p, hpath, hfind, by rw [toolCheck, hp]⟩

theorem Relied.startFound {searchPath : String} {before after : List String}
    (h : Relied launch c inside (before ++ [entry])) (hname : Path.IsName c.program)
    (hlength : c.program.utf8ByteSize ≤ nameLimit) (hlate : Host.findsLate c = false)
    (hentries : searchEntries searchPath = before ++ entry :: after)
    (hbefore : ∀ d ∈ before, ¬inside.isExecutable ⟨Host.pathIn d c.program⟩)
    (hfound : inside.isExecutable ⟨Host.pathIn entry c.program⟩) (u : Startup) :
    ∃ result, launch ⟨Host.pathIn entry c.program⟩ u (Host.world inside) = .ok result ∧
      Host.startFound (Host.startWith launch c u (Host.world inside)) (some (ofText searchPath))
        (ofText c.program) = .ok result := by
  have hworld : (Host.world inside).files = inside := rfl
  rw [← hworld] at hfound
  obtain ⟨result, hresult⟩ := h.runs _ u (Host.world inside) hfound
  refine ⟨result, hresult, Host.startFound_of_passed hname hlength hentries
    (fun d hd ↦ h.size_le hname.1 hd) (fun d hd ↦ ?_) ?_⟩
  · exact Host.startWith_of_not_isExecutable (hbefore d hd) (h.passes d (List.mem_append_left _ hd))
  · rw [Host.startWith_of_isExecutable h.fits hlate hfound, hresult]

/-- A check of a request that finds the tool names the file that is started, if the entries that
are looked at mean the same to the check and to the child. -/
theorem found_tool_is_started (launch : Launcher) (account : Path) (e : Environment)
    (fs inside : FileSystem) (r : Request) (l : Layout)
    (hok : (report fs account e none r.target r.action l).isOk)
    (henter : Host.enter fs (r.invocation l).toCommand.directory = .ok inside) :
    let c := (r.invocation l).toCommand
    let i := tool r.target r.action
    let entries := visited fs (ToolSearch.home account e) i.program
      (searchEntries ((e.get? searchPathVariable).getD ""))
    Relied launch c inside entries → (∀ entry ∈ entries, MeansSame fs inside entry) →
    ∃ p q node file result,
      (report fs account e none r.target r.action l).checks.head? =
          some (.pass (i.program ++ " tool")
            ("Found at " ++ p.text ++ " (" ++ i.purpose ++ ")")) ∧
        fs.resolve p = .ok node ∧ inside.resolve q = .ok node ∧ fs.fileAt? node = some file ∧
        file.isExecutable ∧ launch q (Host.startup c e) (Host.world inside) = .ok result ∧
        (Host.start launch e c fs).map (·.termination) = .ok result.1 := by
  intro c i entries hrelied hsame
  have hprogram : c.program = i.program := program_toCommand r l
  have hname : Path.IsName c.program := hprogram ▸ isName_program r.target r.action
  have hlength : c.program.utf8ByteSize ≤ nameLimit :=
    hprogram ▸ size_program_le r.target r.action
  have hlate : Host.findsLate c = false := findsLate_invocation r l
  have hchild : (c.childEnvironment e).get? searchPathVariable = e.get? searchPathVariable :=
    get?_searchPath r l e
  have hnodes := Host.nodes_enter henter
  replace henter : Host.enter fs c.directory = .ok inside := henter
  clear_value c
  have hpassed : (toolCheck fs account e none i).passed := by
    simp only [report, Report.isOk, List.all_cons, Bool.and_eq_true] at hok
    exact hok.1
  obtain ⟨searchPath, p, hpath, hfind, hcheck⟩ := exists_of_toolCheck_passed hpassed
  obtain ⟨before, entry, after, hentries, hvisited, rfl, hfound, hbefore⟩ := exists_visited hfind
  have hlooked : entries = before ++ [entry] := by
    simp only [entries, hpath, Option.getD_some]
    exact hvisited
  rw [hlooked] at hrelied hsame
  -- The child sees in each entry what the check has seen.
  have hresolve : ∀ d ∈ before ++ [entry], inside.resolve ⟨Host.pathIn d c.program⟩ =
      fs.resolve (ToolSearch.expand (ToolSearch.home account e) d / i.program) := by
    intro d hd
    rw [← hprogram]
    exact (hsame d hd).resolve hnodes hname _ (hrelied.refusal? hname.1 hd)
  have hentry : entry ∈ before ++ [entry] := by simp
  have hnone : ∀ d ∈ before, ¬inside.isExecutable ⟨Host.pathIn d c.program⟩ := by
    intro d hd
    rw [isExecutable_congr hnodes (hresolve d (List.mem_append_left _ hd)), hbefore d hd]
    exact Bool.false_ne_true
  have hexec : inside.isExecutable ⟨Host.pathIn entry c.program⟩ :=
    (isExecutable_congr hnodes (hresolve entry hentry)).trans hfound
  obtain ⟨result, hresult, hsearch⟩ := hrelied.startFound hname hlength hlate hentries hnone hexec
    (Host.startup c e)
  obtain ⟨node, file, hnode, hfile, hx⟩ := isExecutable_iff.1 hfound
  exact ⟨_, _, node, file, result, congrArg some hcheck, hnode,
    (hresolve entry hentry).trans hnode, hfile, hx, hresult,
    (Host.map_termination_start launch hrelied.accepted henter (hchild.trans hpath)).trans
      (congrArg (Except.map Prod.fst) hsearch)⟩

def toolMachine : FileSystem where
  nodes := #[.directory 0 [("bin", 1), ("ws", 3)], .directory 0 [("cargo", 2)],
    .file ⟨"#!/bin/sh\nexit 7\n".toUTF8, 0o755, 5⟩, .directory 0 []]
  here := 0
  clock := 9

def buildIn (root : Path) : Request := ⟨.build, ⟨.x64, .release, ⟨root⟩⟩, ⟨none, none⟩⟩

def buildCommand (root : Path) : Command := ((buildIn root).invocation ⟨root⟩).toCommand

def searching (searchPath : String) : Environment := ⟨[(searchPathVariable, searchPath)]⟩

def simpleLauncher : Launcher := fun p _ w ↦
  if w.files.isExecutable p then .ok (.exited 7, w) else .error .notFound

theorem found_tool_is_started_absolute_entry :
    (report toolMachine ⟨""⟩ (searching "/bin") none (buildIn ⟨"/ws"⟩).target .build
        ⟨⟨"/ws"⟩⟩).isOk ∧
      Host.enter toolMachine (buildCommand ⟨"/ws"⟩).directory =
        .ok { toolMachine with here := 3 } ∧
      (Host.start simpleLauncher (searching "/bin") (buildCommand ⟨"/ws"⟩) toolMachine).map
        (·.termination) = .ok (.exited 7) := by
  have hok : (report toolMachine ⟨""⟩ (searching "/bin") none (buildIn ⟨"/ws"⟩).target .build
      ⟨⟨"/ws"⟩⟩).isOk := rfl
  have henter : Host.enter toolMachine (buildCommand ⟨"/ws"⟩).directory =
      .ok { toolMachine with here := 3 } := rfl
  have hrelied : Relied simpleLauncher (buildCommand ⟨"/ws"⟩) { toolMachine with here := 3 }
      ["/bin"] := by
    refine ⟨fun p u w h ↦ ⟨_, if_pos h⟩, rfl, rfl, ?_⟩
    intro entry hentry err herr
    obtain rfl := List.mem_singleton.1 hentry
    cases herr
  have hsame : ∀ entry ∈ ["/bin"], MeansSame toolMachine { toolMachine with here := 3 } entry := by
    intro entry hentry
    obtain rfl := List.mem_singleton.1 hentry
    exact .inl rfl
  obtain ⟨p, q, node, file, result, -, -, -, -, -, hresult, hstart⟩ :=
    found_tool_is_started simpleLauncher ⟨""⟩ (searching "/bin") toolMachine _
      (buildIn ⟨"/ws"⟩) ⟨⟨"/ws"⟩⟩ hok henter hrelied hsame
  rw [simpleLauncher] at hresult
  split at hresult
  · cases hresult
    exact ⟨hok, henter, hstart⟩
  · cases hresult

theorem relative_entry_is_not_started :
    (report toolMachine ⟨""⟩ (searching "bin") none (buildIn ⟨"ws"⟩).target .build ⟨⟨"ws"⟩⟩).isOk ∧
      toolMachine.directory ⟨"ws"⟩ = .ok 3 ∧
      (Host.runner (Host.start Host.usual (searching "bin")) ((buildIn ⟨"ws"⟩).invocation ⟨⟨"ws"⟩⟩)
        toolMachine).result = .error (.spawn "cargo" .notFound) := by
  have henter : Host.enter toolMachine (buildCommand ⟨"ws"⟩).directory =
      .ok { toolMachine with here := 3 } := rfl
  have hpath : ((buildCommand ⟨"ws"⟩).childEnvironment (searching "bin")).get? searchPathVariable =
      some "bin" := rfl
  have htried : ofText "bin/cargo" = "bin/cargo" := ofText_of_ascii rfl
  have hmissing (u : Startup) : Host.startWith Host.usual (buildCommand ⟨"ws"⟩) u
      (Host.world { toolMachine with here := 3 }) "bin/cargo" = .error .notFound := by
    rw [← htried, Host.startWith, pathOf_ofText]
    rfl
  have hsearch : Host.startFound (Host.startWith Host.usual (buildCommand ⟨"ws"⟩)
      (Host.startup (buildCommand ⟨"ws"⟩) (searching "bin"))
      (Host.world { toolMachine with here := 3 })) (some (ofText "bin"))
      (ofText (buildCommand ⟨"ws"⟩).program) = .error .notFound := by
    have hentry : ofText "bin" = "bin" := ofText_of_ascii rfl
    have hprogram : ofText (buildCommand ⟨"ws"⟩).program = "cargo" := ofText_of_ascii rfl
    have hpaths : Host.paths "bin" "cargo" = ["bin/cargo"] := rfl
    rw [hentry, hprogram, Host.startFound, if_neg (by decide), Option.getD_some, hpaths,
      Host.firstStarted, hmissing]
    rfl
  have hstart := Host.map_termination_start Host.usual rfl henter hpath
  rw [hsearch] at hstart
  exact ⟨rfl, rfl, Host.result_runner_of_error hstart⟩

end Preflight

end BootMedia
