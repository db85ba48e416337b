import BootMedia.Proofs.CommandLine.Spelling

namespace BootMedia

def Flags.given (f : Flags) : CommandLine.ValueOption → Option String
  | .linker => f.linker
  | .compiler => f.compiler

namespace CommandLine

/-- An option with its value: the spelling, and whether an equals sign joins the two. -/
structure Group where
  option : ValueOption
  long : Bool
  joined : Bool
  value : String

namespace Group

def spelling (g : Group) : String := if g.long then g.option.long else g.option.short

def arguments (g : Group) : List String :=
  if g.joined then [g.spelling ++ "=" ++ g.value] else [g.spelling, g.value]

def stored (g : Group) : String := if g.joined then g.value else expandShort g.value

end Group

inductive Part where
  | name (name : String)
  | group (g : Group)

namespace Part

def arguments : Part → List String
  | name n => [n]
  | group g => g.arguments

def name? : Part → Option String
  | name n => some n
  | group _ => none

def group? : Part → Option Group
  | name _ => none
  | group g => some g

end Part

variable {parts : List Part} {p q : Progress} {o : ValueOption}

def names (parts : List Part) : List String := parts.filterMap Part.name?

def groups (parts : List Part) : List Group := parts.filterMap Part.group?

def values (o : ValueOption) (parts : List Part) : List String :=
  ((groups parts).filter (·.option = o)).map (·.value)

def stored (o : ValueOption) (parts : List Part) : List String :=
  ((groups parts).filter (·.option = o)).map (·.stored)

theorem map_expandShort_joined {g : Group} (h : g.joined = true) :
    g.arguments.map expandShort = [g.option.long ++ "=" ++ g.value] := by
  have hlong := expandShort_of_not_isShort (not_isShort_long g.option ("=" ++ g.value))
  rw [← String.append_assoc] at hlong
  cases hl : g.long <;> simp [Group.arguments, Group.spelling, h, hl, hlong]

theorem map_expandShort_apart {g : Group} (h : g.joined = false) :
    g.arguments.map expandShort = [g.option.long, g.stored] := by
  have hlong := expandShort_of_not_isShort (not_isShort_long g.option "")
  rw [String.append_empty] at hlong
  cases hl : g.long <;> simp [Group.arguments, Group.spelling, Group.stored, h, hl, hlong]

namespace Progress

/-- The next argument begins a part. -/
structure Ready (p : Progress) : Prop where
  awaiting : p.awaiting = none
  onlyNames : p.onlyNames = false

theorem value?_eq_given (p : Progress) (o : ValueOption) : p.value? o = p.flags.given o := by
  cases o <;> rfl

def takeGroup (p : Progress) (g : Group) : Except Stop Progress :=
  if g.joined then p.takeOption g.option (some g.value.toList)
  else do
    let p ← p.settle
    return p.takeValue g.option g.stored

def takePart (p : Progress) : Part → Except Stop Progress
  | .name n => p.takeName n
  | .group g => p.takeGroup g

theorem take_of_ready (hp : p.Ready) (argument : String) :
    p.take argument =
      match shape argument.toList with
      | .separator => .ok { p with onlyNames := true }
      | .long name value => p.takeLong name value
      | .short c => p.takeShort c
      | .name => p.takeName argument := by
  obtain ⟨names, flags, awaiting, twice, onlyNames⟩ := p
  obtain ⟨rfl, rfl⟩ := hp
  rfl

theorem take_name (hp : p.Ready) {n : String} (hn : IsName n) : p.take n = p.takeName n := by
  rw [take_of_ready hp, hn.shape]

theorem takeLong_name (o : ValueOption) (value : Option (List Char)) :
    p.takeLong o.name.toList value = p.takeOption o value := by
  rw [takeLong, ofName?_name]

theorem take_long (hp : p.Ready) (o : ValueOption) : p.take o.long = p.takeOption o none := by
  rw [take_of_ready hp, shape_long]
  exact takeLong_name o none

theorem take_long_equals (hp : p.Ready) (o : ValueOption) (value : String) :
    p.take (o.long ++ "=" ++ value) = p.takeOption o (some value.toList) := by
  rw [take_of_ready hp, shape_long_equals]
  exact takeLong_name o _

theorem takeValue_awaiting (p : Progress) (o : ValueOption) (value : String) :
    { p with awaiting := some o }.takeValue o value = p.takeValue o value := by
  cases o <;> rfl

theorem foldlM_take_group (hp : p.Ready) (g : Group) :
    (g.arguments.map expandShort).foldlM take p = p.takeGroup g := by
  cases hg : g.joined with
  | true =>
    rw [map_expandShort_joined hg, List.foldlM_cons, take_long_equals hp, takeGroup, hg]
    exact bind_pure _
  | false =>
    rw [map_expandShort_apart hg, List.foldlM_cons, take_long hp, takeGroup, hg, takeOption]
    cases p.settle with
    | error stop => rfl
    | ok q => exact congrArg Except.ok (takeValue_awaiting q g.option g.stored)

theorem foldlM_take_part (hp : p.Ready) {part : Part} (hnames : ∀ n ∈ part.name?, IsName n) :
    (part.arguments.map expandShort).foldlM take p = p.takePart part := by
  cases part with
  | name n =>
    have hn : IsName n := hnames n rfl
    rw [Part.arguments, List.map_singleton, expandShort_of_not_isShort hn.not_isShort,
      List.foldlM_cons, take_name hp hn]
    exact bind_pure _
  | group g => exact foldlM_take_group hp g

def readRest (p : Progress) (parts : List Part) : Except Stop Arguments := do
  let q ← ((parts.flatMap Part.arguments).map expandShort).foldlM take p
  q.finish

end Progress

theorem names_cons (part : Part) (parts : List Part) :
    names (part :: parts) = part.name?.toList ++ names parts := by cases part <;> rfl

theorem forall_mem_names_cons {part : Part} {P : String → Prop} :
    (∀ n ∈ names (part :: parts), P n) ↔
      (∀ n ∈ part.name?, P n) ∧ ∀ n ∈ names parts, P n := by
  rw [names_cons, List.forall_mem_append]
  simp

theorem readRest_cons (hp : p.Ready) {part : Part} (hpart : ∀ n ∈ part.name?, IsName n)
    (parts : List Part) :
    p.readRest (part :: parts) = (do
      let q ← p.takePart part
      q.readRest parts) := by
  rw [Progress.readRest, List.flatMap_cons, List.map_append, List.foldlM_append,
    Progress.foldlM_take_part hp hpart, bind_assoc]
  rfl

theorem settle_of_twice (h : p.twice = some o) : p.settle = .error (.usage (.repeated o)) := by
  rw [Progress.settle, h]

theorem settle_of_not_twice (h : p.twice = none) : p.settle = .ok p := by
  rw [Progress.settle, h]

/-- An option given twice is found out by the next part, or at the end. -/
theorem readRest_of_twice (hp : p.Ready) (h : p.twice = some o)
    (hnames : ∀ n ∈ names parts, IsName n) (a : Arguments) : p.readRest parts ≠ .ok a := by
  have hsettle := settle_of_twice h
  cases parts with
  | nil =>
    change p.finish ≠ .ok a
    rw [Progress.finish, hp.awaiting, hsettle]
    rintro ⟨⟩
  | cons part parts =>
    obtain ⟨stop, hstop⟩ : ∃ stop, p.takePart part = .error stop := by
      cases part with
      | name n =>
        rw [Progress.takePart, Progress.takeName, hsettle]
        split <;> exact ⟨_, rfl⟩
      | group g =>
        rw [Progress.takePart, Progress.takeGroup, Progress.takeOption, hsettle]
        split <;> exact ⟨_, rfl⟩
    rw [readRest_cons hp (forall_mem_names_cons.1 hnames).1, hstop]
    rintro ⟨⟩

theorem value?_setValue (p : Progress) (o o' : ValueOption) (value : String) :
    (p.setValue value o).value? o' = if o = o' then some value else p.value? o' := by
  cases o <;> cases o' <;> rfl

theorem stored_cons_group (g : Group) (parts : List Part) (o : ValueOption) :
    stored o (.group g :: parts) =
      if g.option = o then g.stored :: stored o parts else stored o parts := by
  by_cases h : g.option = o <;> simp [stored, groups, Part.group?, h]

theorem ready_setValue (hp : p.Ready) (value : String) (o : ValueOption) :
    (p.setValue value o).Ready := by
  cases o <;> exact ⟨hp.awaiting, hp.onlyNames⟩

theorem takeGroup_of_new {g : Group} (hp : p.Ready) (ht : p.twice = none)
    (h : p.value? g.option = none) : p.takeGroup g = .ok (p.setValue g.stored g.option) := by
  have hsome : ¬(p.value? g.option).isSome := by simp [h]
  cases hg : g.joined with
  | true =>
    rw [Progress.takeGroup, if_pos hg, Progress.takeOption, settle_of_not_twice ht, Group.stored,
      if_pos hg]
    refine (if_neg hsome).trans ?_
    rw [String.ofList_toList]
    rfl
  | false =>
    have hawaiting : (p.setValue g.stored g.option).awaiting = none :=
      (ready_setValue hp g.stored g.option).awaiting
    rw [Progress.takeGroup, hg, settle_of_not_twice ht]
    change Except.ok (p.takeValue g.option g.stored) = _
    rw [Progress.takeValue, if_neg hsome, ← hawaiting]

theorem takeGroup_of_given {g : Group} (ht : p.twice = none) (h : (p.value? g.option).isSome) :
    (∃ stop, p.takeGroup g = .error stop) ∨
      p.takeGroup g = .ok { p with awaiting := none, twice := some g.option } := by
  cases hg : g.joined with
  | true =>
    left
    rw [Progress.takeGroup, if_pos hg, Progress.takeOption, settle_of_not_twice ht]
    exact ⟨_, if_pos h⟩
  | false =>
    right
    rw [Progress.takeGroup, hg, settle_of_not_twice ht]
    change Except.ok (p.takeValue g.option g.stored) = _
    rw [Progress.takeValue, if_pos h]

/-- What has been read and the parts that follow come to `a`: three names, and at most one value
for each option. -/
def Comes (p : Progress) (parts : List Part) (a : Arguments) : Prop :=
  p.names ++ names parts = [a.action, a.architecture, a.configuration] ∧
    ∀ o, (p.value? o).toList ++ stored o parts = (a.flags.given o).toList

variable {a : Arguments}

theorem flags_eq_of_given {f f' : Flags} (h : ∀ o, (f.given o).toList = (f'.given o).toList) :
    f = f' := by
  have hgiven : ∀ o, f.given o = f'.given o := by
    intro o
    simpa using congrArg List.head? (h o)
  obtain ⟨compiler, linker⟩ := f
  obtain rfl : compiler = f'.compiler := hgiven .compiler
  obtain rfl : linker = f'.linker := hgiven .linker
  rfl

theorem finish_eq_ok_iff (hp : p.Ready) (ht : p.twice = none) :
    p.finish = .ok a ↔
      p.names = [a.action, a.architecture, a.configuration] ∧ p.flags = a.flags := by
  obtain ⟨action, architecture, configuration, flags⟩ := a
  rw [Progress.finish, hp.awaiting]
  simp only [settle_of_not_twice ht]
  change (pure p >>= _) = _ ↔ _
  rw [pure_bind]
  split
  · next x y z hxyz => simp [hxyz, and_assoc]
  · next hne =>
    refine iff_of_false (fun h ↦ nomatch h) ?_
    rintro ⟨h, -⟩
    exact hne _ _ _ h

theorem comes_nil : Comes p [] a ↔
    p.names = [a.action, a.architecture, a.configuration] ∧ p.flags = a.flags := by
  have hnames : p.names ++ names [] = p.names := List.append_nil _
  have hvalues : ∀ o, (p.value? o).toList ++ stored o [] = (p.flags.given o).toList := by
    intro o
    rw [Progress.value?_eq_given]
    exact List.append_nil _
  rw [Comes, hnames]
  refine and_congr_right fun _ ↦ ⟨fun h ↦ ?_, fun h o ↦ ?_⟩
  · exact flags_eq_of_given fun o ↦ (hvalues o).symm.trans (h o)
  · rw [hvalues, h]

theorem comes_name (n : String) :
    Comes p (.name n :: parts) a ↔ Comes { p with names := p.names ++ [n] } parts a := by
  have hvalue : ∀ o, { p with names := p.names ++ [n] }.value? o = p.value? o := by
    intro o
    cases o <;> rfl
  simp only [Comes, hvalue, List.append_assoc]
  rfl

theorem comes_group {g : Group} (h : p.value? g.option = none) :
    Comes p (.group g :: parts) a ↔ Comes (p.setValue g.stored g.option) parts a := by
  have hstored : ∀ o, (p.value? o).toList ++ stored o (.group g :: parts) =
      ((p.setValue g.stored g.option).value? o).toList ++ stored o parts := by
    intro o
    rw [value?_setValue, stored_cons_group]
    split
    · next ho => simp [← ho, h]
    · rfl
  have hnames : (p.setValue g.stored g.option).names = p.names := by cases g.option <;> rfl
  simp only [Comes, hstored, hnames]
  rfl

theorem not_comes_surplus {n : String} (h : ¬p.names.length < places.length) :
    ¬Comes p (.name n :: parts) a := by
  rintro ⟨hnames, -⟩
  have hlength := congrArg List.length hnames
  have hplaces : places.length = 3 := rfl
  simp only [names_cons, Part.name?, Option.toList, List.length_append, List.length_cons,
    List.length_nil] at hlength
  omega

theorem not_comes_given {g : Group} (h : (p.value? g.option).isSome) :
    ¬Comes p (.group g :: parts) a := by
  rintro ⟨-, hvalues⟩
  obtain ⟨v, hv⟩ := Option.isSome_iff_exists.1 h
  have hlength := congrArg List.length (hvalues g.option)
  rw [hv, stored_cons_group, if_pos rfl] at hlength
  cases hg : a.flags.given g.option <;> simp [hg] at hlength

/-- By induction on the parts: each one moves from the front of the list into what has been read. -/
theorem readRest_eq_ok_iff (hp : p.Ready) (ht : p.twice = none)
    (hnames : ∀ n ∈ names parts, IsName n) : p.readRest parts = .ok a ↔ Comes p parts a := by
  induction parts generalizing p with
  | nil => exact (finish_eq_ok_iff hp ht).trans comes_nil.symm
  | cons part parts ih =>
    obtain ⟨hpart, hrest⟩ := forall_mem_names_cons.1 hnames
    rw [readRest_cons hp hpart]
    cases part with
    | name n =>
      rw [Progress.takePart, Progress.takeName, settle_of_not_twice ht]
      split
      · have hq : Progress.Ready { p with names := p.names ++ [n] } := ⟨hp.awaiting, hp.onlyNames⟩
        exact (ih hq ht hrest).trans (comes_name n).symm
      · next hfull => exact iff_of_false (fun h ↦ nomatch h) (not_comes_surplus hfull)
    | group g =>
      rw [Progress.takePart]
      cases hv : p.value? g.option with
      | none =>
        rw [takeGroup_of_new hp ht hv]
        have hq := ready_setValue hp g.stored g.option
        have hqt : (p.setValue g.stored g.option).twice = none := by
          cases g.option <;> exact ht
        exact (ih hq hqt hrest).trans (comes_group hv).symm
      | some v =>
        have hsome : (p.value? g.option).isSome := by simp [hv]
        refine iff_of_false ?_ (not_comes_given hsome)
        rcases takeGroup_of_given ht hsome with ⟨stop, hstop⟩ | hok
        · rw [hstop]
          exact fun h ↦ nomatch h
        · rw [hok]
          have hq : Progress.Ready { p with awaiting := none, twice := some g.option } :=
            ⟨rfl, hp.onlyNames⟩
          exact readRest_of_twice hq rfl hrest a

theorem parse_eq_ok_iff (hnames : ∀ n ∈ names parts, IsName n) :
    parse (parts.flatMap Part.arguments) = .ok a ↔
      names parts = [a.action, a.architecture, a.configuration] ∧
        ∀ o, stored o parts = (a.flags.given o).toList := by
  have h := readRest_eq_ok_iff (p := .start) (a := a) ⟨rfl, rfl⟩ rfl hnames
  have hvalue : ∀ o, (Progress.start.value? o).toList = [] := by
    intro o
    cases o <;> rfl
  simp only [Comes, hvalue, List.nil_append] at h
  exact h

theorem length_stored (o : ValueOption) (parts : List Part) :
    (stored o parts).length = (values o parts).length := by simp [stored, values]

theorem exists_flags_stored (h : ∀ o, (stored o parts).length ≤ 1) :
    ∃ f : Flags, ∀ o, stored o parts = (f.given o).toList := by
  let f : Flags := ⟨(stored .compiler parts).head?, (stored .linker parts).head?⟩
  refine ⟨f, fun o ↦ ?_⟩
  have hhead : f.given o = (stored o parts).head? := by cases o <;> rfl
  rw [hhead]
  match hs : stored o parts, h o with
  | [], _ => rfl
  | [v], _ => rfl

theorem stored_eq_values_iff :
    (∀ o, stored o parts = values o parts) ↔
      ∀ g ∈ groups parts, g.joined = false → ¬IsShort g.value := by
  have hstored : ∀ g : Group, g.stored = g.value ↔ (g.joined = false → ¬IsShort g.value) := by
    intro g
    cases hg : g.joined <;> simp [Group.stored, hg, expandShort_eq_self_iff]
  simp only [stored, values, List.map_inj_left, List.mem_filter, hstored]
  constructor
  · intro h g hg
    exact h g.option g ⟨hg, by simp⟩
  · exact fun h o g hg ↦ h g hg.1

/-- A command line of names and options, in any order, is read when three names are given and no
option twice, and only then. The values come back as given unless one that stands alone is itself a
short spelling; a value behind an equals sign always does. -/
theorem parse_parts (parts : List Part) (hnames : ∀ n ∈ names parts, IsName n) :
    (∀ (action architecture configuration : String) (f : Flags),
      names parts = [action, architecture, configuration] →
      (∀ o, values o parts = (f.given o).toList) →
      ∃ f', parse (parts.flatMap Part.arguments) =
          .ok ⟨action, architecture, configuration, f'⟩ ∧
        (f' = f ↔ ∀ g ∈ groups parts, g.joined = false → ¬IsShort g.value) ∧
        ∀ g ∈ groups parts, g.joined = true → f'.given g.option = some g.value) ∧
    ((∃ o, 2 ≤ (values o parts).length) ∨ (names parts).length ≠ 3 →
      ∀ a, parse (parts.flatMap Part.arguments) ≠ .ok a) := by
  constructor
  · intro action architecture configuration f hthree hvalues
    have hone : ∀ o, (stored o parts).length ≤ 1 := by
      intro o
      rw [length_stored, hvalues]
      exact Option.length_toList_le
    obtain ⟨f', hf'⟩ := exists_flags_stored hone
    have hparse : parse (parts.flatMap Part.arguments) =
        .ok ⟨action, architecture, configuration, f'⟩ :=
      (parse_eq_ok_iff hnames).2 ⟨hthree, hf'⟩
    refine ⟨f', hparse, ?_, ?_⟩
    · -- Flags are determined by their values, and those that were read are the stored ones.
      rw [← stored_eq_values_iff]
      constructor
      · rintro rfl o
        rw [hf', hvalues]
      · intro h
        refine flags_eq_of_given fun o ↦ ?_
        rw [← hf', ← hvalues, h]
    · intro g hg hjoined
      have hmem : g.stored ∈ stored g.option parts :=
        List.mem_map_of_mem (List.mem_filter.2 ⟨hg, by simp⟩)
      rw [hf', Option.mem_toList] at hmem
      rw [hmem, Group.stored, if_pos hjoined]
  · intro hmore a ha
    obtain ⟨hthree, hstored⟩ := (parse_eq_ok_iff hnames).1 ha
    rcases hmore with ⟨o, ho⟩ | hlength
    · have hlength := congrArg List.length (hstored o)
      have hone : (a.flags.given o).toList.length ≤ 1 := Option.length_toList_le
      rw [length_stored] at hlength
      omega
    · rw [hthree] at hlength
      exact hlength rfl

theorem parse_parts_short_value : ∃ f,
    parse ["build", "-rf", "-lf=x", "x64", "--linkerflags=--", "release"] =
        .ok ⟨"build", "x64", "release", f⟩ ∧
      f ≠ ⟨some "-lf=x", some "--"⟩ ∧ f.linker = some "--" := by
  have hnames : ∀ n ∈ names [.name "build", .group ⟨.compiler, false, false, "-lf=x"⟩,
      .name "x64", .group ⟨.linker, true, true, "--"⟩, .name "release"], IsName n := by
    decide
  obtain ⟨f, hparse, hflags, hjoined⟩ := (parse_parts _ hnames).1 "build" "x64" "release"
    ⟨some "-lf=x", some "--"⟩ rfl (by rintro (_ | _) <;> rfl)
  refine ⟨f, hparse, fun h ↦ ?_, ?_⟩
  · refine hflags.1 h ⟨.compiler, false, false, "-lf=x"⟩ (.head _) rfl ?_
    exact ⟨.linker, .inr (by decide)⟩
  · exact hjoined ⟨.linker, true, true, "--"⟩ (.tail _ (.head _)) rfl

end CommandLine

end BootMedia
