import BootMedia.Proofs.Text.Words
import BootMedia.Text.Octets

namespace BootMedia.Text.Octets

variable {c d : Char} {s : String}

theorem toList_loop (bytes : ByteArray) (i : Nat) (r : List UInt8) :
    ByteArray.toList.loop bytes i r = r.reverse ++ bytes.data.toList.drop i := by
  fun_induction ByteArray.toList.loop bytes i r with
  | case1 i r hlt ih =>
    have hlen : i < bytes.data.toList.length := by simpa using hlt
    have hget : bytes.get! i = bytes.data.toList[i] := by
      cases bytes with
      | mk data => exact getElem!_pos data i (by simpa using hlen)
    rw [ih, List.drop_eq_getElem_cons hlen, hget, List.reverse_cons, List.append_assoc]
    rfl
  | case2 i r hge =>
    have hlen : bytes.data.toList.length ≤ i := by simpa using Nat.le_of_not_lt hge
    rw [List.drop_eq_nil_of_le hlen, List.append_nil]

theorem toList_eq_data_toList (bytes : ByteArray) : bytes.toList = bytes.data.toList := by
  rw [ByteArray.toList, toList_loop]
  simp

/-- The characters that stand for the bytes of one. -/
def octets (c : Char) : List Char := (String.utf8EncodeChar c).map single

theorem toList_toUTF8 (s : String) : s.toUTF8.toList = s.toList.flatMap String.utf8EncodeChar := by
  rw [toList_eq_data_toList]
  change s.toByteArray.data.toList = _
  rw [← String.utf8Encode_toList, List.utf8Encode.eq_1, List.toList_data_toByteArray]

theorem toList_ofText (s : String) : (ofText s).toList = s.toList.flatMap octets := by
  rw [ofText, read, String.toList_ofList, toList_toUTF8, List.map_flatMap]
  rfl

theorem ofText_append (s t : String) : ofText (s ++ t) = ofText s ++ ofText t := by
  apply String.toList_injective
  simp [toList_ofText]

theorem length_ofText (s : String) : (ofText s).length = s.utf8ByteSize := by
  change _ = s.toUTF8.size
  rw [← String.length_toList, ofText, read, String.toList_ofList, List.length_map,
    toList_eq_data_toList, Array.length_toList]
  rfl

theorem ofText_ne_empty (h : s ≠ "") : ofText s ≠ "" := by
  intro he
  have hsize := length_ofText s
  rw [he, String.length_empty, eq_comm, String.utf8ByteSize_eq_zero_iff] at hsize
  exact h hsize

theorem octets_of_ascii (h : c.toNat ≤ 127) : octets c = [c] := by
  have hval : c.val.toNat ≤ 127 := h
  rw [octets, String.utf8EncodeChar.eq_1, if_pos hval]
  change [Char.ofNat (UInt8.ofNat c.toNat).toNat] = [c]
  rw [UInt8.toNat_ofNat', Nat.mod_eq_of_lt (by omega), Char.ofNat_toNat]

theorem toNat_single (b : UInt8) : (single b).toNat = b.toNat := by
  have hlt := b.toNat_lt
  have hvalid : b.toNat.isValidChar := .inl (by omega)
  rw [single, Char.ofNat, dif_pos hvalid]
  rfl

theorem le_toNat_of_mem_octets (hc : 127 < c.toNat) (hd : d ∈ octets c) : 128 ≤ d.toNat := by
  have hval : ¬c.val.toNat ≤ 127 := Nat.not_le.2 hc
  obtain ⟨b, hb, rfl⟩ := List.mem_map.1 hd
  rw [toNat_single]
  rw [String.utf8EncodeChar.eq_1, if_neg hval] at hb
  split_ifs at hb <;> simp only [List.mem_cons, List.not_mem_nil, or_false] at hb <;>
    rcases hb with rfl | rfl | rfl | rfl <;> simp only [UInt8.toNat_ofNat'] <;> omega

theorem mem_octets_iff (hd : d.toNat ≤ 127) : d ∈ octets c ↔ d = c := by
  by_cases hc : c.toNat ≤ 127
  · rw [octets_of_ascii hc, List.mem_singleton]
  · constructor
    · intro h
      have hle := le_toNat_of_mem_octets (Nat.not_le.1 hc) h
      omega
    · rintro rfl
      exact absurd hd hc

theorem mem_ofText_iff (hd : d.toNat ≤ 127) : d ∈ (ofText s).toList ↔ d ∈ s.toList := by
  simp [toList_ofText, mem_octets_iff hd]

theorem ofText_of_ascii (h : s.toList.all fun c ↦ c.toNat ≤ 127) : ofText s = s := by
  apply String.toList_injective
  rw [toList_ofText]
  generalize s.toList = cs at h
  induction cs with
  | nil => rfl
  | cons c cs ih =>
    rw [List.all_cons, Bool.and_eq_true, decide_eq_true_iff] at h
    rw [List.flatMap_cons, octets_of_ascii h.1, ih h.2]
    rfl

theorem splitOn_append_of_not_mem {u : List Char} (h : d ∉ u) (cs : List Char) :
    (u ++ cs).splitOn d = (cs.splitOn d).modifyHead (u ++ ·) := by
  obtain ⟨w, ws, hw⟩ := List.exists_cons_of_ne_nil (List.splitOn_ne_nil d cs)
  induction u with
  | nil => simp [hw]
  | cons c u ih =>
    rw [List.mem_cons, not_or] at h
    rw [List.cons_append, List.splitOn_cons_eq_if_modifyHead, ih h.2, hw]
    simp [Ne.symm h.1]

/-- The octets of a text are cut where the text is. -/
theorem splitOn_flatMap_octets (hd : d.toNat ≤ 127) (cs : List Char) :
    (cs.flatMap octets).splitOn d = (cs.splitOn d).map (·.flatMap octets) := by
  induction cs with
  | nil => rfl
  | cons c cs ih =>
    obtain ⟨w, ws, hw⟩ := List.exists_cons_of_ne_nil (List.splitOn_ne_nil d cs)
    rw [hw] at ih
    rw [List.flatMap_cons, List.splitOn_cons_eq_if_modifyHead, hw]
    by_cases hc : c = d
    · subst hc
      rw [octets_of_ascii hd, List.singleton_append, List.splitOn_cons_eq_if_modifyHead, ih]
      simp
    · -- No byte of `c` is a place to cut at.
      have hmem : d ∉ octets c := (mem_octets_iff hd).not.2 (Ne.symm hc)
      rw [splitOn_append_of_not_mem hmem, ih]
      simp [hc]

section Decode

theorem write_ofText (s : String) : write (ofText s) = s.toByteArray := by
  have hbytes : (ofText s).toList.map (fun c ↦ UInt8.ofNat c.toNat) =
      s.toByteArray.data.toList := by
    rw [ofText, read, String.toList_ofList, toList_eq_data_toList, List.map_map]
    refine (List.map_congr_left fun b _ ↦ ?_).trans (List.map_id _)
    rw [Function.comp_apply, toNat_single, UInt8.ofNat_toNat]
    rfl
  rw [write, hbytes, Array.toArray_toList]

theorem decodeFrom_utf8Encode (cs ds : List Char) (limit : Nat)
    (h : ds.utf8Encode.size ≤ limit) :
    decodeFrom (cs ++ ds).utf8Encode limit cs.utf8Encode.size = ds := by
  -- On what is left; `cs` has been decoded, and grows by one character a step.
  induction ds generalizing cs limit with
  | nil =>
    cases limit with
    | zero => rfl
    | succ limit => simp [decodeFrom]
  | cons c ds ih =>
    have hc : [c].utf8Encode.size = c.utf8Size := by
      simp [List.utf8Encode.eq_1]
    have hpos := c.utf8Size_pos
    have hrest : (c :: ds).utf8Encode.size = c.utf8Size + ds.utf8Encode.size := by
      rw [List.utf8Encode_cons, ByteArray.size_append, hc]
    have hsize : (cs ++ c :: ds).utf8Encode.size =
        cs.utf8Encode.size + (c :: ds).utf8Encode.size := by
      rw [List.utf8Encode_append, ByteArray.size_append]
    have hchar : (cs ++ c :: ds).utf8Encode.utf8DecodeChar? cs.utf8Encode.size = some c := by
      rw [ByteArray.utf8DecodeChar?_eq_utf8DecodeChar?_extract, hsize, List.utf8Encode_append,
        ByteArray.extract_append_eq_right rfl rfl, List.utf8DecodeChar?_utf8Encode_cons]
    have hnext : cs.utf8Encode.size + c.utf8Size = (cs ++ [c]).utf8Encode.size := by
      rw [List.utf8Encode_append, ByteArray.size_append, hc]
    obtain ⟨limit, rfl⟩ : ∃ n, limit = n + 1 := ⟨limit - 1, by omega⟩
    have ih := ih (cs ++ [c]) limit (by omega)
    rw [List.append_assoc, List.singleton_append, ← hnext] at ih
    rw [decodeFrom, if_pos (by omega), hchar]
    exact congrArg (c :: ·) ih

theorem toText_ofText (s : String) : toText (ofText s) = s := by
  have h := decodeFrom_utf8Encode [] s.toList s.toByteArray.size (by simp)
  rw [List.nil_append, String.utf8Encode_toList] at h
  have hdecode : decodeFrom s.toByteArray s.toByteArray.size 0 = s.toList := h
  rw [toText, write_ofText, decode, hdecode, String.ofList_toList]

end Decode

end BootMedia.Text.Octets
