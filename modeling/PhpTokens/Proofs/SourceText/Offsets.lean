import PhpTokens.Proofs.SourceText

/-! Access by byte offset. Offsets are those of the bytes that encode a source: the character at an
offset is the one that decoding begins with there, and the text of an extent is what its bytes
encode. Read at every offset in turn, the characters of a source are those of its text, each of
them once; and an extent has a text exactly when it runs forwards, within the source, from one edge
of characters to another. -/

namespace PhpTokens.SourceText

theorem size_eq (s : SourceText) : s.size = s.text.toUTF8.size := by
  rw [size, ← Utf8.size_utf8Encode, String.utf8Encode_toList, String.toUTF8_eq_toByteArray]

/-- The text of an extent is made of the bytes of the extent. -/
theorem toUTF8_of_part? {s : SourceText} {a b : Nat} {part : String}
    (h : s.part? ⟨a, b⟩ = some part) : part.toUTF8 = s.text.toUTF8.extract a b := by
  obtain ⟨m, n, hmn, _, rfl, rfl, rfl⟩ := part?_eq_some_iff.mp h
  rw [String.toUTF8_eq_toByteArray, String.toUTF8_eq_toByteArray, String.toByteArray_ofList,
    ← String.utf8Encode_toList, Utf8.extract_utf8Encode hmn]

/-- The character at an offset is decoded from the bytes there. The bytes inside a character begin
none. -/
theorem char?_eq_decode (s : SourceText) (offset : Nat) :
    s.char? offset = s.text.toUTF8.utf8DecodeChar? offset := by
  rw [String.toUTF8_eq_toByteArray]
  cases hrest : dropBytes? offset s.text.toList with
  | some rest =>
    obtain ⟨n, hn, rfl, rfl⟩ := dropBytes?_eq_some_iff.mp hrest
    have hbytes := Utf8.extract_utf8Encode hn s.text.toList
    rw [List.take_length, ← Utf8.size_utf8Encode s.text.toList, ← List.length_drop,
      List.take_length] at hbytes
    rw [char?, hrest, Option.bind_some, ← String.utf8Encode_toList,
      ByteArray.utf8DecodeChar?_eq_utf8DecodeChar?_extract, hbytes,
      Utf8.utf8DecodeChar?_utf8Encode]
  | none =>
    -- a byte that begins a character stands behind whole characters, which could be dropped
    rw [char?, hrest, Option.bind_none, eq_comm, ← Option.not_isSome_iff_eq_none]
    intro hdecode
    have hvalid : String.Pos.Raw.IsValid s.text ⟨offset⟩ :=
      String.Pos.Raw.isValid_iff_isSome_utf8DecodeChar?.mpr (.inr hdecode)
    obtain ⟨n, hn, hsize⟩ := Utf8.isValid_iff.mp hvalid
    rw [dropBytes?_eq_some_iff.mpr ⟨n, hn, hsize, rfl⟩] at hrest
    cases hrest

theorem char?_of_size_le {s : SourceText} {offset : Nat} (h : s.size ≤ offset) :
    s.char? offset = none := by
  rw [char?_eq_decode, ← Option.not_isSome_iff_eq_none]
  intro hdecode
  have hlt := ByteArray.lt_size_of_isSome_utf8DecodeChar? hdecode
  rw [← size_eq] at hlt
  exact Nat.not_lt.mpr h hlt

/-- An offset where a character begins, or the end of the text. -/
def IsEdge (s : SourceText) (offset : Nat) : Prop :=
  offset = s.size ∨ (s.char? offset).isSome = true

instance (s : SourceText) (offset : Nat) : Decidable (s.IsEdge offset) :=
  inferInstanceAs (Decidable (_ ∨ _))

theorem isEdge_iff {s : SourceText} {offset : Nat} :
    s.IsEdge offset ↔
      ∃ n, n ≤ s.text.toList.length ∧ Utf8.size (s.text.toList.take n) = offset := by
  have hend : offset = s.size ↔ (⟨offset⟩ : String.Pos.Raw) = s.text.rawEndPos := by
    rw [String.Pos.Raw.ext_iff, String.byteIdx_rawEndPos, size_eq, String.toUTF8_eq_toByteArray,
      String.size_toByteArray]
  rw [← Utf8.isValid_iff, String.Pos.Raw.isValid_iff_isSome_utf8DecodeChar?, IsEdge, hend,
    char?_eq_decode, String.toUTF8_eq_toByteArray]

theorem part?_isSome_iff {s : SourceText} {a b : Nat} :
    (s.part? ⟨a, b⟩).isSome = true ↔ a ≤ b ∧ b ≤ s.size ∧ s.IsEdge a ∧ s.IsEdge b := by
  rw [isEdge_iff, isEdge_iff, Option.isSome_iff_exists]
  constructor
  · intro h
    obtain ⟨part, hpart⟩ := h
    obtain ⟨m, n, hmn, hn, rfl, rfl, _⟩ := part?_eq_some_iff.mp hpart
    exact ⟨Utf8.size_take_mono hmn _, Utf8.size_take_le _ _, ⟨m, Nat.le_trans hmn hn, rfl⟩,
      ⟨n, hn, rfl⟩⟩
  · intro h
    obtain ⟨hle, _, ⟨m, hm, rfl⟩, ⟨n, hn, rfl⟩⟩ := h
    have hmn : m ≤ n := by
      rwa [← Nat.not_lt, Utf8.size_take_lt_iff hm, Nat.not_lt] at hle
    exact ⟨_, part?_eq_some_iff.mpr ⟨m, n, hmn, hn, rfl, rfl, rfl⟩⟩

/-- The character of a text that begins at a byte offset. -/
def charAt? (cs : List Char) (offset : Nat) : Option Char := (dropBytes? offset cs).bind List.head?

section Cons

variable (c : Char) (cs : List Char)

theorem charAt?_cons_zero : charAt? (c :: cs) 0 = some c := rfl

theorem charAt?_cons_inside {offset : Nat} (hpos : 0 < offset) (hlt : offset < c.utf8Size) :
    charAt? (c :: cs) offset = none := by
  rw [charAt?, Option.bind_eq_none_iff]
  intro rest hrest
  obtain ⟨n, _, hsize, _⟩ := dropBytes?_eq_some_iff.mp hrest
  cases n with
  | zero => exact absurd hsize (Nat.ne_of_lt hpos)
  | succ n =>
    rw [List.take_succ_cons, Utf8.size_cons] at hsize
    omega

theorem charAt?_cons_add (offset : Nat) :
    charAt? (c :: cs) (c.utf8Size + offset) = charAt? cs offset := by
  have hdrop : dropBytes? (c.utf8Size + offset) (c :: cs) = dropBytes? offset cs := by
    ext rest
    rw [dropBytes?_eq_some_iff, dropBytes?_eq_some_iff]
    constructor
    · intro h
      obtain ⟨n, hn, hsize, hrest⟩ := h
      cases n with
      | zero =>
        have hc := c.utf8Size_pos
        rw [List.take_zero, Utf8.size_nil] at hsize
        omega
      | succ n => exact ⟨n, Nat.le_of_succ_le_succ hn, Nat.add_left_cancel hsize, hrest⟩
    · intro h
      obtain ⟨n, hn, rfl, hrest⟩ := h
      exact ⟨n + 1, Nat.succ_le_succ hn, rfl, hrest⟩
  rw [charAt?, hdrop, charAt?]

/-- The offsets of the bytes of one character name that character, and name it once. -/
theorem filterMap_charAt?_cons :
    (List.range c.utf8Size).filterMap (charAt? (c :: cs)) = [c] := by
  obtain ⟨more, hsize⟩ := Nat.exists_eq_add_one_of_ne_zero (Nat.ne_of_gt c.utf8Size_pos)
  have hinside : ((List.range more).map Nat.succ).filterMap (charAt? (c :: cs)) = [] := by
    rw [List.filterMap_eq_nil_iff]
    intro offset hoffset
    obtain ⟨i, hi, rfl⟩ := List.mem_map.mp hoffset
    have hlt : i + 1 < c.utf8Size := by
      rw [hsize]
      exact Nat.succ_lt_succ (List.mem_range.mp hi)
    exact charAt?_cons_inside c cs (Nat.succ_pos i) hlt
  rw [hsize, List.range_succ_eq_map, List.filterMap_cons_some (charAt?_cons_zero c cs), hinside]

end Cons

/-- Read at every byte in turn, a text is read once. -/
theorem filterMap_charAt? (cs : List Char) :
    (List.range (Utf8.size cs)).filterMap (charAt? cs) = cs := by
  induction cs with
  | nil => rfl
  | cons c cs ih =>
    -- the bytes of `c` come first, and behind them all offsets are greater by their number
    have hshift : charAt? (c :: cs) ∘ (c.utf8Size + ·) = charAt? cs :=
      funext (charAt?_cons_add c cs)
    rw [Utf8.size_cons, List.range_add, List.filterMap_append, filterMap_charAt?_cons,
      List.filterMap_map, hshift, ih]
    rfl

/-- Offsets address the text of a source. Read at every offset in turn, its characters are those of
the text in order, and from the end on there are none. An extent has a text exactly when it runs
forwards, within the source, between edges of characters, and the texts of two extents that meet
join to that of both. All offsets are those of the bytes that encode the source. -/
theorem offsets_address_text (s : SourceText) :
    (List.range s.size).filterMap s.char? = s.text.toList ∧
      (∀ offset, s.size ≤ offset → s.char? offset = none) ∧
      (∀ a b, (s.part? ⟨a, b⟩).isSome = true ↔
        a ≤ b ∧ b ≤ s.size ∧ s.IsEdge a ∧ s.IsEdge b) ∧
      (∀ a b c front back, s.part? ⟨a, b⟩ = some front → s.part? ⟨b, c⟩ = some back →
        s.part? ⟨a, c⟩ = some (front ++ back)) ∧
      s.size = s.text.toUTF8.size ∧
      (∀ offset, s.char? offset = s.text.toUTF8.utf8DecodeChar? offset) ∧
      ∀ a b part, s.part? ⟨a, b⟩ = some part → part.toUTF8 = s.text.toUTF8.extract a b := by
  refine ⟨filterMap_charAt? s.text.toList, fun _ => char?_of_size_le, fun _ _ => part?_isSome_iff,
    ?_, s.size_eq, s.char?_eq_decode, fun _ _ _ => toUTF8_of_part?⟩
  intro a b c front back hfront hback
  exact part?_append hfront hback

/-- Characters of one to four bytes, up to the end of the text and beyond it. -/
theorem offsets_address_text_wide :
    let s : SourceText := { text := "$é€😀" }
    s.size = 10 ∧ s.IsEdge 3 ∧ ¬ s.IsEdge 5 ∧
      s.char? (Word.bound - 1) = none ∧
      (List.range 10).filterMap s.char? = ['$', 'é', '€', '😀'] ∧
      s.part? ⟨1, 3⟩ = some "é" ∧ s.part? ⟨3, 10⟩ = some "€😀" ∧
      s.part? ⟨1, 10⟩ = some ("é" ++ "€😀") ∧
      "é".toUTF8 = s.text.toUTF8.extract 1 3 ∧
      (s.part? ⟨3, 5⟩).isSome = false ∧ (s.part? ⟨Word.bound - 1, 3⟩).isSome = false := by
  obtain ⟨hchars, hbeyond, _, hjoin, _, _, hbytes⟩ := offsets_address_text { text := "$é€😀" }
  have hfront : SourceText.part? { text := "$é€😀" } ⟨1, 3⟩ = some "é" := by decide
  have hback : SourceText.part? { text := "$é€😀" } ⟨3, 10⟩ = some "€😀" := by decide
  exact ⟨by decide, by decide, by decide, hbeyond _ (by decide), hchars, hfront, hback,
    hjoin 1 3 10 _ _ hfront hback, hbytes 1 3 _ hfront, by decide, by decide⟩

end PhpTokens.SourceText
