import PhpTokens.Text.Utf8

/-! Bytes against characters. The bytes in front of an index of a text determine the index, and the
search for an ASCII byte finds a character: every byte in the UTF-8 form of another character
differs from it. What is counted are the bytes of the encoded text, and those between two indices
encode the characters between them. -/

namespace PhpTokens.Utf8

theorem size_take_add (m n : Nat) (cs : List Char) :
    size (cs.take (m + n)) = size (cs.take m) + size ((cs.drop m).take n) := by
  rw [List.take_add, size_append]

theorem size_take_mono {m n : Nat} (h : m ≤ n) (cs : List Char) :
    size (cs.take m) ≤ size (cs.take n) := by
  obtain ⟨d, rfl⟩ := Nat.exists_eq_add_of_le h
  rw [size_take_add]
  exact Nat.le_add_right _ _

theorem size_pos {cs : List Char} (h : cs ≠ []) : 0 < size cs := by
  obtain ⟨c, rest, rfl⟩ := List.exists_cons_of_ne_nil h
  have hc := c.utf8Size_pos
  rw [size_cons]
  omega

/-- A text has at least one byte for each character. -/
theorem length_le_size (cs : List Char) : cs.length ≤ size cs := by
  induction cs with
  | nil => exact Nat.le_refl 0
  | cons c cs ih =>
    have hc := c.utf8Size_pos
    rw [List.length_cons, size_cons]
    omega

theorem size_take_add_drop (n : Nat) (cs : List Char) :
    size (cs.take n) + size (cs.drop n) = size cs := by
  rw [← size_append, List.take_append_drop]

theorem size_take_le (n : Nat) (cs : List Char) : size (cs.take n) ≤ size cs := by
  rw [← size_take_add_drop n cs]
  exact Nat.le_add_right _ _

theorem size_drop_le (n : Nat) (cs : List Char) : size (cs.drop n) ≤ size cs := by
  rw [← size_take_add_drop n cs]
  exact Nat.le_add_left _ _

theorem size_take_lt {m n : Nat} {cs : List Char} (h : m < n) (hn : n ≤ cs.length) :
    size (cs.take m) < size (cs.take n) := by
  obtain ⟨d, rfl⟩ := Nat.exists_eq_add_of_lt h
  have hne : (cs.drop m).take (d + 1) ≠ [] := by
    apply List.ne_nil_of_length_pos
    simp only [List.length_take, List.length_drop]
    omega
  have hpos := size_pos hne
  rw [Nat.add_assoc, size_take_add]
  omega

theorem size_take_lt_iff {m n : Nat} {cs : List Char} (hn : n ≤ cs.length) :
    size (cs.take m) < size (cs.take n) ↔ m < n := by
  constructor
  · intro hlt
    apply Nat.lt_of_not_le
    intro hle
    exact Nat.not_lt.mpr (size_take_mono hle cs) hlt
  · intro hlt
    exact size_take_lt hlt hn

/-- Bytes determine the index that they stand in front of. -/
theorem size_take_inj {cs : List Char} {m n : Nat} (hm : m ≤ cs.length) (hn : n ≤ cs.length)
    (h : size (cs.take m) = size (cs.take n)) : m = n := by
  rcases Nat.lt_trichotomy m n with hlt | heq | hlt
  · have hsize := size_take_lt hlt hn
    omega
  · exact heq
  · have hsize := size_take_lt hlt hm
    omega

theorem charsInFrom?_size (passed : Nat) (front rest : List Char) :
    charsInFrom? passed (size front) (front ++ rest) = some (passed + front.length) := by
  induction front generalizing passed with
  | nil => cases rest <;> simp [charsInFrom?]
  | cons c front ih =>
    have hc := c.utf8Size_pos
    have hne : c.utf8Size + size front ≠ 0 := by omega
    rw [List.cons_append, charsInFrom?, size_cons, if_neg hne, if_pos (Nat.le_add_right _ _),
      Nat.add_sub_cancel_left, ih, List.length_cons]
    congr 1
    omega

theorem charsIn?_size (front rest : List Char) :
    charsIn? (size front) (front ++ rest) = some front.length := by
  simpa [charsIn?] using charsInFrom?_size 0 front rest

theorem charsInFrom?_eq_some {passed bytes n : Nat} {cs : List Char}
    (h : charsInFrom? passed bytes cs = some n) :
    ∃ k, n = passed + k ∧ k ≤ cs.length ∧ size (cs.take k) = bytes := by
  induction cs generalizing passed bytes with
  | nil =>
    simp only [charsInFrom?] at h
    split at h
    · next hzero =>
      cases h
      exact ⟨0, rfl, Nat.le_refl _, hzero.symm⟩
    · cases h
  | cons c cs ih =>
    simp only [charsInFrom?] at h
    split at h
    · next hzero =>
      cases h
      exact ⟨0, rfl, Nat.zero_le _, hzero.symm⟩
    · split at h
      · next hle =>
        obtain ⟨k, hn, hk, hsize⟩ := ih h
        refine ⟨k + 1, by omega, Nat.succ_le_succ hk, ?_⟩
        rw [List.take_succ_cons, size_cons, hsize]
        omega
      · cases h

/-- The bytes that characters fill determine their number. -/
theorem charsIn?_eq_some_iff {bytes n : Nat} {cs : List Char} :
    charsIn? bytes cs = some n ↔ n ≤ cs.length ∧ size (cs.take n) = bytes := by
  constructor
  · intro h
    obtain ⟨k, hn, hk, hsize⟩ := charsInFrom?_eq_some h
    rw [Nat.zero_add] at hn
    exact hn ▸ ⟨hk, hsize⟩
  · rintro ⟨hn, rfl⟩
    have hsize := charsIn?_size (cs.take n) (cs.drop n)
    rwa [List.take_append_drop, List.length_take, Nat.min_eq_left hn] at hsize

/-- No byte below 128 takes part in the form of a character beyond ASCII. -/
theorem byte_ge_of_not_ascii {c : Char} (h : 128 ≤ c.toNat) {b : UInt8}
    (hb : b ∈ String.utf8EncodeChar c) : 128 ≤ b.toNat := by
  have hv : ¬ c.val.toNat ≤ 127 := Nat.not_le.mpr h
  unfold String.utf8EncodeChar at hb
  simp only [hv, if_false] at hb
  split at hb
  · simp only [List.mem_cons, List.not_mem_nil, or_false] at hb
    rcases hb with rfl | rfl <;> rw [UInt8.toNat_ofNat'] <;> omega
  · split at hb
    · simp only [List.mem_cons, List.not_mem_nil, or_false] at hb
      rcases hb with rfl | rfl | rfl <;> rw [UInt8.toNat_ofNat'] <;> omega
    · simp only [List.mem_cons, List.not_mem_nil, or_false] at hb
      rcases hb with rfl | rfl | rfl | rfl <;> rw [UInt8.toNat_ofNat'] <;> omega

theorem encode_ascii {c : Char} (h : c.toNat < 128) :
    String.utf8EncodeChar c = [UInt8.ofNat c.toNat] := by
  have hv : c.val.toNat ≤ 127 := Nat.le_of_lt_succ h
  unfold String.utf8EncodeChar
  exact if_pos hv

/-- The byte of an ASCII character stands in that character's form alone. -/
theorem findIdx?_encode {c : Char} (h : c.toNat < 128) (d : Char) :
    (String.utf8EncodeChar d).findIdx? (· == UInt8.ofNat c.toNat) =
      if d = c then some 0 else none := by
  by_cases hd : d = c
  · simp [hd, encode_ascii h]
  · rw [if_neg hd, List.findIdx?_eq_none_iff]
    intro b hb
    rw [beq_eq_false_iff_ne]
    intro he
    have hbyte : b.toNat = c.toNat := by
      rw [he, UInt8.toNat_ofNat']
      exact Nat.mod_eq_of_lt (by omega)
    by_cases hascii : d.toNat < 128
    · rw [encode_ascii hascii, List.mem_singleton] at hb
      rw [hb, UInt8.toNat_ofNat', Nat.mod_eq_of_lt (by omega)] at hbyte
      exact hd (Char.toNat_inj.mp hbyte)
    · have hge := byte_ge_of_not_ascii (Nat.le_of_not_lt hascii) hb
      omega

theorem indexOfFrom?_ascii {c : Char} (h : c.toNat < 128) (passed : Nat) (cs : List Char) :
    indexOfFrom? (UInt8.ofNat c.toNat) passed cs =
      if c ∈ cs then some (passed + size (cs.takeWhile (· != c))) else none := by
  induction cs generalizing passed with
  | nil => rfl
  | cons d cs ih =>
    rw [indexOfFrom?, findIdx?_encode h]
    by_cases hd : d = c
    · simp [hd]
    · have hcd : c ≠ d := Ne.symm hd
      simp [hd, hcd, ih, Nat.add_assoc]

/-- The search for an ASCII byte passes the characters in front of that character. -/
theorem indexOf?_ascii {c : Char} (h : c.toNat < 128) (cs : List Char) :
    indexOf? (UInt8.ofNat c.toNat) cs =
      if c ∈ cs then some (size (cs.takeWhile (· != c))) else none := by
  simpa [indexOf?] using indexOfFrom?_ascii h 0 cs

theorem size_utf8Encode (cs : List Char) : cs.utf8Encode.size = size cs := by
  induction cs with
  | nil => rfl
  | cons c cs ih =>
    rw [List.utf8Encode_cons, ByteArray.size_append, ih, size_cons, List.utf8Encode_singleton,
      List.size_toByteArray, String.length_utf8EncodeChar]

/-- The bytes between two indices are the form of the characters between them. -/
theorem extract_utf8Encode {m n : Nat} (h : m ≤ n) (cs : List Char) :
    cs.utf8Encode.extract (size (cs.take m)) (size (cs.take n)) =
      ((cs.drop m).take (n - m)).utf8Encode := by
  have hsplit : cs.take m ++ ((cs.drop m).take (n - m) ++ (cs.drop m).drop (n - m)) = cs := by
    rw [List.take_append_drop, List.take_append_drop]
  have hstop := size_take_add m (n - m) cs
  have hskip := ByteArray.extract_append_size_add (a := (cs.take m).utf8Encode) (i := 0)
    (b := ((cs.drop m).take (n - m) ++ (cs.drop m).drop (n - m)).utf8Encode)
    (j := size ((cs.drop m).take (n - m)))
  rw [Nat.add_sub_cancel' h] at hstop
  rw [Nat.add_zero, size_utf8Encode, ← hstop, ← List.utf8Encode_append, hsplit] at hskip
  rw [hskip, List.utf8Encode_append]
  exact ByteArray.extract_append_eq_left (size_utf8Encode _).symm

/-- The bytes of a text begin with those of its first character. -/
theorem utf8DecodeChar?_utf8Encode (cs : List Char) :
    cs.utf8Encode.utf8DecodeChar? 0 = cs.head? := by
  cases cs with
  | nil => rfl
  | cons c cs => exact List.utf8DecodeChar?_utf8Encode_cons

/-- The positions of a text are the numbers of bytes in front of its indices. -/
theorem isValid_iff {text : String} {offset : Nat} :
    String.Pos.Raw.IsValid text ⟨offset⟩ ↔
      ∃ n, n ≤ text.toList.length ∧ size (text.toList.take n) = offset := by
  have hsize (n : Nat) :
      (String.ofList (text.toList.take n)).utf8ByteSize = size (text.toList.take n) := by
    rw [← size_utf8Encode, ← String.size_toByteArray, String.toByteArray_ofList]
  have hvalid := String.Pos.Raw.isValid_ofList (l := text.toList) (p := ⟨offset⟩)
  simp only [String.ofList_toList, hsize] at hvalid
  rw [hvalid]
  constructor
  · intro hn
    obtain ⟨n, rfl⟩ := hn
    rcases Nat.le_total n text.toList.length with hle | hle
    · exact ⟨n, hle, rfl⟩
    · refine ⟨text.toList.length, Nat.le_refl _, ?_⟩
      rw [List.take_length, List.take_of_length_le hle]
  · intro hn
    obtain ⟨n, _, hsize⟩ := hn
    exact ⟨n, hsize.symm⟩

end PhpTokens.Utf8
