import BootMedia.Failure

namespace BootMedia

/-- A finite type whose values are picked by name, listed in the order they are offered. -/
class Choice (α : Type) where
  kind : String
  all : List α
  name : α → String
  complete : ∀ a, a ∈ all
  name_injective : ∀ a b, name a = name b → a = b

namespace Choice

variable {α : Type} [Choice α]

def supported (α : Type) [Choice α] : List String := (all : List α).map name

def parse (s : String) : Except Failure α :=
  match (all : List α).find? (name · == s) with
  | some a => .ok a
  | none => .error (.unsupported (kind α) s (supported α))

def position [DecidableEq α] (a : α) : Nat := (all : List α).idxOf a

theorem parse_eq_ok_iff {s : String} {a : α} : parse s = .ok a ↔ name a = s := by
  unfold parse
  constructor
  · intro h
    split at h
    next b hb =>
      cases h
      simpa using List.find?_some hb
    next => cases h
  · rintro rfl
    cases hf : (all : List α).find? (name · == name a) with
    | none => exact absurd (List.find?_eq_none.1 hf a (complete a)) (by simp)
    | some b =>
      have hb : name b = name a := by simpa using List.find?_some hf
      rw [name_injective b a hb]

theorem parse_eq_error_iff {s : String} {f : Failure} :
    (parse s : Except Failure α) = .error f ↔
      s ∉ supported α ∧ f = .unsupported (kind α) s (supported α) := by
  unfold parse
  constructor
  · intro h
    split at h
    next => cases h
    next hn =>
      cases h
      refine ⟨fun hs ↦ ?_, rfl⟩
      obtain ⟨a, _, rfl⟩ := List.mem_map.1 hs
      exact absurd (List.find?_eq_none.1 hn a (complete a)) (by simp)
  · rintro ⟨hs, rfl⟩
    cases hf : (all : List α).find? (name · == s) with
    | none => rfl
    | some b =>
      have hb : name b = s := by simpa using List.find?_some hf
      exact absurd (List.mem_map.2 ⟨b, complete b, hb⟩) hs

end Choice

end BootMedia
