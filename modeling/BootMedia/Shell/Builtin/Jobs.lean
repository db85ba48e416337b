import BootMedia.Shell.Builtin.Basic

namespace BootMedia.Shell

namespace Builtin

section Jobs

def isJobName (word : String) : Bool := word.toList.head? = some '%'

/-- The job that a word speaks of. Those that go on in the background are no jobs to be controlled,
and cannot be told from each other by their texts. -/
def namedJob (word : String) : Act Job := do
  let jobs := (← get).jobs
  let found (j : Option Job) (trouble : String) : Act Job :=
    match j with
    | some j => return j
    | none => Act.fail trouble
  let missing := "No such job: " ++ word
  match word.toList with
  | ['%'] | ['%', '%'] | ['%', '+'] => found jobs.head? "No current job"
  | ['%', '-'] => found jobs.tail.head? "No previous job"
  | '%' :: cs =>
    match numeral? (.ofList cs) with
    | some n => found (jobs.find? (·.number = n)) missing
    | none => Act.fail missing
  | _ => Act.fail missing

def ending : Termination → String
  | .exited 0 => "Done"
  | .exited status => "Done(" ++ toString status.toNat ++ ")"
  | .signalled n => Signal.meaning n.val

def jobColumn : Nat := 33

def jobLine (hasProcess : Bool) (place : Nat) (j : Job) : String :=
  let mark := if place = 0 then "+" else if place = 1 then "-" else " "
  let text :=
    "[" ++ toString j.number ++ "] " ++ mark ++ " " ++
      (if hasProcess then toString j.process ++ " " else "") ++
      j.outcome.elim "Running" ending
  text ++ .ofList (List.replicate (max 1 (jobColumn - text.length)) ' ') ++ "\n"

def listJobs (words : List String) : Act Reply := do
  let (ls, names) ← letters "lp" "" words
  let all := (← get).jobs
  let jobs ← if names.isEmpty then pure all else names.mapM namedJob
  let line (j : Job) : String :=
    match ls.getLast? with
    | some ('p', _) => toString j.process ++ "\n"
    | l => jobLine l.isSome ((all.findIdx? (·.process = j.process)).getD 0) j
  let isOver (j : Job) : Bool := j.outcome.isSome && jobs.any (·.process = j.process)
  modify fun s ↦ { s with jobs := s.jobs.filter (!isOver ·) }
  return .ofText (String.join (jobs.map line))

/-- There is no job that could be brought to the foreground or be resumed. -/
def resume (words : List String) : Act Reply := do
  let names ← plainWords words
  let name := names.headD "%%"
  let _ ← namedJob name
  let shown := if names.isEmpty then "(null)" else name
  Act.fail ("job " ++ shown ++ " not created under job control")

def awaitJob (j : Job) : Act Nat := do
  let t ← finishJob j
  if j.outcome.isNone then reportEnd t
  setJob { j with outcome := some t, isWaited := true }
  return Act.statusOf t

def await (words : List String) : Act Reply := do
  match ← plainWords words with
  | [] =>
    finishJobs
    modify fun s ↦ { s with jobs := s.jobs.map ({ · with isWaited := true }) }
    return .done
  | names =>
    let mut status := unknownCommand
    for name in names do
      let j ←
        if isJobName name then pure (some (← namedJob name))
        else job? (← Act.number name)
      if let some j := j then status ← awaitJob j
    return .silent status

end Jobs

section Signals

def signal? (isReal : Bool) (text : String) : Option Nat :=
  match Signal.ofText? text with
  | some 0 => if isReal && (numeral? text).isNone then none else some 0
  | n => n

def send (signal process : Nat) : Act Bool := do
  let s ← get
  match s.jobs.find? fun j ↦ j.process = process && j.outcome.isNone with
  | some j =>
    setJob { j with signals := j.signals ++ [signal] }
    return true
  | none =>
    if process = s.process || process = s.shell then
      set { s with world := { s.world with signals := (process, signal) :: s.world.signals } }
      receiveAll
      return true
    else return false

def killUsage : String :=
  "Usage: kill [-s sigspec | -signum | -sigspec] [pid | job]... or\n" ++
    "kill -l [exitstatus]"

def killAll (signal : Nat) (targets : List String) : Act Reply := do
  if targets.isEmpty then Act.fail killUsage
  let mut status := 0
  for target in targets do
    let isThere ←
      match target.toList with
      | '%' :: _ =>
        let _ ← namedJob target
        pure false
      | '-' :: cs =>
        let _ ← Act.number (.ofList cs)
        pure false
      | _ => send signal (← Act.number target)
    if !isThere then
      Act.complain "No such process\n"
      status := 1
  return .silent status

def signalNames (words : List String) : Act Reply := do
  match words with
  | [] =>
    let names := ((List.range Signal.last).map fun n ↦ Signal.name (n + 1) ++ "\n")
    return .ofText ("0\n" ++ String.join names)
  | word :: _ =>
    let status ← Act.number word
    let n := if 128 < status then status - 128 else status
    if 0 < n && n ≤ Signal.last then return .ofText (Signal.name n ++ "\n")
    else Act.fail ("invalid signal number or exit status: " ++ word)

def kill (words : List String) : Act Reply := do
  let given :=
    match (words.headD "").toList with
    | '-' :: name => signal? true (.ofList name)
    | _ => none
  match given, words with
  | _, [] => Act.fail killUsage
  | some n, _ :: targets => killAll n targets
  | none, _ => do
    let (ls, targets) ← letters "l" "s" words
    let signal? ← ls.foldlM (fun (n : Option Nat) (l : Letter) ↦
      match l.2 with
      | none => return n
      | some text =>
        match signal? true text with
        | some m => return some m
        | none => Act.fail ("invalid signal number or name: " ++ text)) none
    if ls.any (·.1 = 'l') then
      if signal?.isSome then Act.fail killUsage else signalNames targets
    else killAll (signal?.getD Signal.termination) targets

def trapListing (traps : List (Nat × String)) : String :=
  String.join <| (List.range (Signal.last + 1)).filterMap fun n ↦
    (traps.lookup n).map fun action ↦ "trap -- " ++ quoted action ++ " " ++ Signal.name n ++ "\n"

def arrange (action : Option String) (names : List String) : Act Reply := do
  for name in names do
    match signal? false name with
    | none =>
      Act.say 2 ("trap: " ++ name ++ ": bad trap\n")
      return .silent 1
    | some n =>
      modify fun s ↦
        let others := s.traps.filter (·.1 ≠ n)
        { s with traps := action.elim others fun a ↦ (n, a) :: others }
  return .done

def trap (words : List String) : Act Reply := do
  match ← plainWords words with
  | [] => return .ofText (trapListing (← get).traps)
  | [name] => arrange none [name]
  | first :: names =>
    if (numeral? first).any (· ≤ Signal.last) then arrange none (first :: names)
    else arrange (if first = "-" then none else some first) names

end Signals

end Builtin

end BootMedia.Shell
