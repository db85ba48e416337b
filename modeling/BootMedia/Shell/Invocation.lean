import BootMedia.Shell.Builtin.Table

namespace BootMedia.Shell

inductive Callee where
  | nothing
  | builtin (b : Builtin)
  | function (f : Function)
  | program (path : Option String)

structure Call where
  callee : Callee
  words : List String
  shown : List String
  isSpecial : Bool
  isLocal : Bool

namespace Call

section Words

structure Partial where
  expanded : List String
  rest : List Word

variable (inner : Inner)

def moreWords (expanded : List String) : List Word → Act Partial
  | [] => return ⟨expanded, []⟩
  | w :: ws => do
    match ← expandWord inner w with
    | [] => moreWords expanded ws
    | texts => return ⟨expanded ++ texts, ws⟩

def next (p : Partial) : Act (Option (String × Partial)) := do
  let p ← if p.expanded.isEmpty then moreWords inner [] p.rest else pure p
  match p.expanded with
  | t :: ts => return some (t, ⟨ts, p.rest⟩)
  | [] => return none

inductive Prefixed where
  | command (isUsual : Bool) (front : List String) (p : Partial)
  | other (p : Partial)

def prefixed : Nat → Bool → List String → Partial → Act Prefixed
  | 0, _, front, p => return .other ⟨front ++ p.expanded, p.rest⟩
  | limit + 1, isUsual, front, p => do
    match ← next inner p with
    | none => return .other ⟨front, []⟩
    | some (t, q) =>
      match t.toList with
      | ['-', '-'] =>
        match ← next inner q with
        | none => return .other ⟨front ++ [t], []⟩
        | some (u, r) => return .command isUsual (front ++ [t]) ⟨u :: r.expanded, r.rest⟩
      | '-' :: c :: cs =>
        if (c :: cs).all (· = 'p') then prefixed limit true (front ++ [t]) q
        else return .other ⟨front ++ t :: q.expanded, q.rest⟩
      | _ => return .command isUsual front ⟨t :: q.expanded, q.rest⟩

def allWords (assigns : Bool) (p : Partial) : Act (List String) := do
  let others ← p.rest.mapM fun w ↦
    if assigns && isAssignment w then return [← expandSingle inner .assignment w]
    else expandWord inner w
  return p.expanded ++ others.flatten

end Words

section Recognition

variable (inner : Inner)

/-- Finds out what a command is, and expands its words. `lead` holds the words in front that say how
to look for it; behind them functions are not looked for. -/
def recognise : Nat → List String → Option String → Bool → Partial → Act Call
  | 0, _, _, _, _ => Act.fail "Script too long"
  | limit + 1, lead, path, isSpecial, p => do
    let finish (callee : Callee) (assigns isSpecial isLocal : Bool) (p : Partial) : Act Call := do
      let words ← allWords inner assigns p
      return ⟨callee, words, lead ++ words, isSpecial, isLocal⟩
    let s ← get
    let isFirst := lead.isEmpty
    match p.expanded with
    | [] => return ⟨.nothing, [], [], false, false⟩
    | name :: others =>
      match if isFirst then s.functions.lookup name else none with
      | some f => finish (.function f) false isSpecial true p
      | none =>
        match Builtin.find? name with
        | none => finish (.program path) false isSpecial true p
        | some b =>
          let isSpecial := if isFirst then b.isSpecial else isSpecial
          let isLocal := !isFirst || !b.isSpecial
          if b.name = Builtin.commandName then
            let steps := p.rest.length + p.expanded.length
            match ← prefixed inner steps false [] ⟨others, p.rest⟩ with
            | .command isUsual front q =>
              let path := if isUsual then some defaultSearchPath else path
              recognise limit (lead ++ name :: front) path isSpecial q
            | .other q =>
              finish (.builtin b) b.assigns isSpecial isLocal ⟨name :: q.expanded, q.rest⟩
          else finish (.builtin b) b.assigns isSpecial isLocal p

def ofWords (words : List Word) : Act Call := do
  recognise inner (words.length + 1) [] none false (← moreWords inner [] words)

end Recognition

end Call

end BootMedia.Shell
