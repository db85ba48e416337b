import BootMedia.Text.Quoted
import Mathlib.Data.Nat.Notation

namespace BootMedia.Text

namespace Quoted

def hexDigit (c : Char) : Nat := if c.toNat < 58 then c.toNat - 48 else c.toNat - 87

def ofHex (cs : List Char) : Nat := cs.foldl (fun n c ↦ 16 * n + hexDigit c) 0

def meant : Char → Char
  | '0' => '\x00'
  | 't' => '\t'
  | 'r' => '\r'
  | 'n' => '\n'
  | c => c

/-- The first character of a text that was escaped, and what follows it. -/
def unescape : List Char → Option (Char × List Char)
  | '\\' :: 'u' :: '\x7b' :: cs =>
    some (.ofNat (ofHex (cs.takeWhile (· ≠ '\x7d'))), (cs.dropWhile (· ≠ '\x7d')).tail)
  | '\\' :: c :: cs => some (meant c, cs)
  | c :: cs => some (c, cs)
  | [] => none

theorem hexDigit_digitChar : ∀ {n : Nat}, n < 16 → hexDigit n.digitChar = n := by
  decide

theorem digitChar_ne_brace : ∀ {n : Nat}, n < 16 → n.digitChar ≠ '\x7d' := by
  decide

theorem ofHex_append_singleton (cs : List Char) (c : Char) :
    ofHex (cs ++ [c]) = 16 * ofHex cs + hexDigit c := by
  simp [ofHex]

theorem ofHex_toDigits (n : Nat) : ofHex (Nat.toDigits 16 n) = n := by
  induction n using Nat.strongRecOn with
  | ind n ih =>
    rw [Nat.toDigits_eq_if (by decide)]
    split
    · next h => simp [ofHex, hexDigit_digitChar h]
    · rw [ofHex_append_singleton, ih (n / 16) (by omega), hexDigit_digitChar (by omega)]
      omega

theorem brace_not_mem_toDigits (n : Nat) : '\x7d' ∉ Nat.toDigits 16 n := by
  induction n using Nat.strongRecOn with
  | ind n ih =>
    rw [Nat.toDigits_eq_if (by decide)]
    split
    · next h => simp [(digitChar_ne_brace h).symm]
    · have hlast := digitChar_ne_brace (n := n % 16) (by omega)
      simpa [hlast.symm] using ih (n / 16) (by omega)

theorem unescape_numbered (c : Char) (cs : List Char) :
    unescape (numbered c ++ cs) = some (c, cs) := by
  have hb : ∀ d ∈ Nat.toDigits 16 c.toNat, decide (d ≠ '\x7d') = true := by
    intro d hd
    have hne : d ≠ '\x7d' := ne_of_mem_of_not_mem hd (brace_not_mem_toDigits _)
    simp [hne]
  have htake : (Nat.toDigits 16 c.toNat ++ '\x7d' :: cs).takeWhile (· ≠ '\x7d') =
      Nat.toDigits 16 c.toNat := by
    rw [List.takeWhile_append_of_pos hb]
    simp
  have hdrop : (Nat.toDigits 16 c.toNat ++ '\x7d' :: cs).dropWhile (· ≠ '\x7d') =
      '\x7d' :: cs := by
    rw [List.dropWhile_append_of_pos hb]
    simp
  have hn : numbered c ++ cs =
      '\\' :: 'u' :: '\x7b' :: (Nat.toDigits 16 c.toNat ++ '\x7d' :: cs) := by
    simp [numbered]
  rw [hn, unescape, htake, hdrop, ofHex_toDigits, Char.ofNat_toNat]
  rfl

theorem unescape_escape (c : Char) (cs : List Char) :
    unescape (escape c ++ cs) = some (c, cs) := by
  by_cases h0 : c = '\x00'
  · subst h0; rfl
  by_cases ht : c = '\t'
  · subst ht; rfl
  by_cases hr : c = '\r'
  · subst hr; rfl
  by_cases hn : c = '\n'
  · subst hn; rfl
  by_cases hq : c = '"'
  · subst hq; rfl
  by_cases hb : c = '\\'
  · subst hb; rfl
  by_cases hu : isUnprintable c
  · simp only [escape, h0, ht, hr, hn, hq, hb, hu, if_true, if_false, unescape_numbered]
  · simp [escape, h0, ht, hr, hn, hq, hb, hu, unescape]

theorem head?_escape (c : Char) (cs : List Char) : (escape c ++ cs).head? ≠ some '"' := by
  unfold escape
  repeat' split
  all_goals simp_all [numbered]

theorem flatMap_escape_inj {cs cs' xs xs' : List Char}
    (h : cs.flatMap escape ++ '"' :: xs = cs'.flatMap escape ++ '"' :: xs') :
    cs = cs' ∧ xs = xs' := by
  induction cs generalizing cs' with
  | nil =>
    cases cs' with
    | nil => simpa using h
    | cons c' cs' =>
      rw [List.flatMap_cons, List.append_assoc] at h
      exact absurd (congrArg List.head? h).symm (head?_escape c' _)
  | cons c cs ih =>
    rw [List.flatMap_cons, List.append_assoc] at h
    cases cs' with
    | nil => exact absurd (congrArg List.head? h) (head?_escape c _)
    | cons c' cs' =>
      rw [List.flatMap_cons, List.append_assoc] at h
      have hfirst := congrArg unescape h
      rw [unescape_escape, unescape_escape, Option.some.injEq, Prod.mk.injEq] at hfirst
      obtain ⟨rfl, hrest⟩ := hfirst
      obtain ⟨rfl, rfl⟩ := ih hrest
      exact ⟨rfl, rfl⟩

theorem encode_append_inj {cs cs' xs xs' : List Char}
    (h : encode cs ++ xs = encode cs' ++ xs') : cs = cs' ∧ xs = xs' := by
  simp only [encode, List.cons_append, List.append_assoc, List.cons.injEq, true_and] at h
  exact flatMap_escape_inj h

end Quoted

/-- Where a quoted text ends, and what it holds, can be seen from its beginning. -/
theorem quoted_append_inj {s s' x x' : String}
    (h : quoted s ++ x = quoted s' ++ x') : s = s' ∧ x = x' := by
  have hl := congrArg String.toList h
  simp only [quoted, String.toList_append, String.toList_ofList] at hl
  obtain ⟨hs, hx⟩ := Quoted.encode_append_inj hl
  exact ⟨String.toList_inj.1 hs, String.toList_inj.1 hx⟩

end BootMedia.Text
