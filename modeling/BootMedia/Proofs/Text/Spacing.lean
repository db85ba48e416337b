import BootMedia.Proofs.Text.Words

namespace BootMedia.Text

@[ext]
structure Piece where
  word : List Char
  gap : List Char
  word_ne_nil : word ≠ []
  word_solid : ∀ c ∈ word, isBlank c = false
  gap_blank : ∀ c ∈ gap, isBlank c

def Piece.text (p : Piece) : List Char := p.word ++ p.gap

/-- Some blanks, then words with blanks behind them; there is a blank between any two words. -/
@[ext]
structure Spacing where
  lead : List Char
  pieces : List Piece
  lead_blank : ∀ c ∈ lead, isBlank c
  apart : ∀ p ∈ pieces.dropLast, p.gap ≠ []

namespace Spacing

variable {cs u u' v v' : List Char} {p : Piece} {ps : List Piece} {q : Char → Bool}

def text (s : Spacing) : List Char := s.lead ++ s.pieces.flatMap Piece.text

def words (s : Spacing) : List (List Char) := s.pieces.map (·.word)

/-- A text can be cut in one place only so that all of its beginning is as `q` says, and what
follows is not. -/
theorem append_inj_of_all (hu : ∀ c ∈ u, q c) (hu' : ∀ c ∈ u', q c)
    (hv : ∀ c ∈ v.head?, q c = false) (hv' : ∀ c ∈ v'.head?, q c = false)
    (h : u ++ v = u' ++ v') : u = u' ∧ v = v' := by
  have htake : ∀ {u v : List Char}, (∀ c ∈ u, q c) → (∀ c ∈ v.head?, q c = false) →
      (u ++ v).takeWhile q = u := by
    intro u v hu hv
    rw [List.takeWhile_append_of_pos hu]
    cases v with
    | nil => simp
    | cons c v => simp [hv c rfl]
  have hleft : u = u' := by rw [← htake hu hv, h, htake hu' hv']
  subst hleft
  exact ⟨rfl, List.append_cancel_left h⟩

theorem apart_cons_iff :
    (∀ r ∈ (p :: ps).dropLast, r.gap ≠ []) ↔
      (ps ≠ [] → p.gap ≠ []) ∧ ∀ r ∈ ps.dropLast, r.gap ≠ [] := by
  cases ps with
  | nil => simp
  | cons r ps => simp

theorem head?_pieces_solid (ps : List Piece) :
    ∀ c ∈ (ps.flatMap Piece.text).head?, isBlank c = false := by
  intro c hc
  cases ps with
  | nil => simp at hc
  | cons p ps =>
    obtain ⟨d, w, hw⟩ := List.exists_cons_of_ne_nil p.word_ne_nil
    obtain rfl : d = c := by simpa [Piece.text, hw] using hc
    apply p.word_solid
    simp [hw]

theorem head?_gap_blank (h : ps ≠ [] → p.gap ≠ []) :
    ∀ c ∈ (p.gap ++ ps.flatMap Piece.text).head?, isBlank c := by
  intro c hc
  cases hg : p.gap with
  | nil =>
    obtain rfl : ps = [] := by
      by_contra hps
      exact h hps hg
    simp [hg] at hc
  | cons d gap =>
    obtain rfl : d = c := by simpa [hg] using hc
    apply p.gap_blank
    simp [hg]

theorem pieces_inj {ps' : List Piece} (hps : ∀ p ∈ ps.dropLast, p.gap ≠ [])
    (hps' : ∀ p ∈ ps'.dropLast, p.gap ≠ [])
    (h : ps.flatMap Piece.text = ps'.flatMap Piece.text) : ps = ps' := by
  have hne : ∀ (p : Piece) (ps : List Piece), (p :: ps).flatMap Piece.text ≠ [] := by
    intro p ps
    simp [Piece.text, p.word_ne_nil]
  induction ps generalizing ps' with
  | nil =>
    cases ps' with
    | nil => rfl
    | cons p' ps' => exact absurd h.symm (hne p' ps')
  | cons p ps ih =>
    cases ps' with
    | nil => exact absurd h (hne p ps)
    | cons p' ps' =>
      obtain ⟨hp, hps⟩ := apart_cons_iff.1 hps
      obtain ⟨hp', hps'⟩ := apart_cons_iff.1 hps'
      simp only [List.flatMap_cons, Piece.text, List.append_assoc] at h
      -- First the words are equal, then the gaps behind them.
      obtain ⟨hword, h⟩ := append_inj_of_all (q := (!isBlank ·))
        (by simpa using p.word_solid) (by simpa using p'.word_solid)
        (by simpa using head?_gap_blank hp) (by simpa using head?_gap_blank hp') h
      obtain ⟨hgap, h⟩ := append_inj_of_all p.gap_blank p'.gap_blank
        (head?_pieces_solid ps) (head?_pieces_solid ps') h
      rw [Piece.ext hword hgap, ih hps hps' h]

theorem text_injective : Function.Injective text := by
  intro s s' h
  obtain ⟨hlead, h⟩ := append_inj_of_all s.lead_blank s'.lead_blank
    (head?_pieces_solid s.pieces) (head?_pieces_solid s'.pieces) h
  exact Spacing.ext hlead (pieces_inj s.apart s'.apart h)

theorem exists_text_eq (cs : List Char) : ∃ s : Spacing, s.text = cs := by
  induction cs with
  | nil => exact ⟨⟨[], [], by simp, by simp⟩, rfl⟩
  | cons c cs ih =>
    obtain ⟨⟨lead, ps, hlead, hps⟩, rfl⟩ := ih
    cases hc : isBlank c with
    | true => exact ⟨⟨c :: lead, ps, by simpa [hc] using hlead, hps⟩, rfl⟩
    | false =>
      cases lead with
      | cons d lead =>
        -- A word of its own: there are blanks behind it.
        let p : Piece := ⟨[c], d :: lead, by simp, by simpa using hc, hlead⟩
        exact ⟨⟨[], p :: ps, by simp, apart_cons_iff.2 ⟨by simp [p], hps⟩⟩, rfl⟩
      | nil =>
        cases ps with
        | nil =>
          let p : Piece := ⟨[c], [], by simp, by simpa using hc, by simp⟩
          exact ⟨⟨[], [p], by simp, by simp⟩, rfl⟩
        | cons r ps =>
          -- One more character of the first word.
          obtain ⟨hr, hps⟩ := apart_cons_iff.1 hps
          let p : Piece := ⟨c :: r.word, r.gap, by simp, by simpa [hc] using r.word_solid,
            r.gap_blank⟩
          exact ⟨⟨[], p :: ps, by simp, apart_cons_iff.2 ⟨hr, hps⟩⟩, rfl⟩

theorem words_blank_append (hu : ∀ c ∈ u, isBlank c) (cs : List Char) :
    Text.words (u ++ cs) = Text.words cs := by
  induction u with
  | nil => rfl
  | cons c u ih =>
    obtain ⟨hc, hu⟩ := List.forall_mem_cons.1 hu
    rw [List.cons_append, Text.words, List.splitOnP_cons_eq_if_modifyHead, if_pos hc]
    simpa [Text.words] using ih hu

theorem words_solid_append (hne : u ≠ []) (hu : ∀ c ∈ u, isBlank c = false)
    (hcs : ∀ c ∈ cs.head?, isBlank c) : Text.words (u ++ cs) = u :: Text.words cs := by
  cases cs with
  | nil => simp [Text.words, List.splitOnP_eq_singleton hu, hne]
  | cons c cs =>
    have hc : isBlank c := hcs c rfl
    rw [Text.words, List.splitOnP_append_cons_of_forall_mem hu c hc]
    simp [Text.words, hne, hc, List.splitOnP_cons_eq_if_modifyHead]

/-- Cutting a text at its blanks finds the words that it is made of. -/
theorem words_text (s : Spacing) : Text.words s.text = s.words := by
  obtain ⟨lead, ps, hlead, hps⟩ := s
  rw [text, words_blank_append hlead, words]
  dsimp only
  clear hlead
  induction ps with
  | nil => rfl
  | cons p ps ih =>
    obtain ⟨hp, hps⟩ := apart_cons_iff.1 hps
    rw [List.flatMap_cons, Piece.text, List.append_assoc,
      words_solid_append p.word_ne_nil p.word_solid (head?_gap_blank hp),
      words_blank_append p.gap_blank, ih hps, List.map_cons]

end Spacing

variable {cs w : List Char} {ws : List (List Char)}

theorem solid_of_mem_words (h : w ∈ words cs) : ∀ c ∈ w, isBlank c = false := by
  obtain ⟨s, rfl⟩ := Spacing.exists_text_eq cs
  rw [s.words_text] at h
  obtain ⟨p, -, rfl⟩ := List.mem_map.1 h
  exact p.word_solid

theorem words_eq_nil_iff : words cs = [] ↔ ∀ c ∈ cs, isBlank c := by
  constructor
  · intro h
    have hflat := flatten_words cs
    rw [h] at hflat
    simpa using hflat.symm
  · intro h
    by_contra hne
    obtain ⟨w, ws, hw⟩ := List.exists_cons_of_ne_nil hne
    have hmem : w ∈ words cs := by simp [hw]
    obtain ⟨c, rest, rfl⟩ := List.exists_cons_of_ne_nil (words_ne_nil hmem)
    have hc : isBlank c = false := solid_of_mem_words hmem c (by simp)
    have hcs : c ∈ cs := (exists_mem_words hc).1 ⟨_, hmem, by simp⟩
    simp [h c hcs] at hc

theorem words_intercalate (h : ∀ w ∈ ws, w ≠ [] ∧ ∀ c ∈ w, isBlank c = false) :
    words ([' '].intercalate ws) = ws := by
  induction ws with
  | nil => rfl
  | cons w ws ih =>
    obtain ⟨⟨hne, hw⟩, hws⟩ := List.forall_mem_cons.1 h
    cases ws with
    | nil => simp [words, List.splitOnP_eq_singleton hw, hne]
    | cons w' ws =>
      have hspace : ∀ c ∈ [' '], isBlank c := by
        intro c hc
        obtain rfl := List.mem_singleton.1 hc
        decide
      have hjoin : [' '].intercalate (w :: w' :: ws) =
          w ++ ([' '] ++ [' '].intercalate (w' :: ws)) := by
        simp [List.intercalate]
      rw [hjoin, Spacing.words_solid_append hne hw (by simp; decide),
        Spacing.words_blank_append hspace, ih hws]

end BootMedia.Text
