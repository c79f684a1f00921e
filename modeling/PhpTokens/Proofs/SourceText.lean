import PhpTokens.SourceText
import PhpTokens.Proofs.Text.Utf8

/-! Parts of a source, byte offsets against indices of characters: an extent has a text exactly
when its ends are the edges of characters in order, and extents that meet join. -/

namespace PhpTokens.SourceText

theorem dropBytes?_eq_some_iff {offset : Nat} {cs rest : List Char} :
    dropBytes? offset cs = some rest ↔
      ∃ n, n ≤ cs.length ∧ Utf8.size (cs.take n) = offset ∧ cs.drop n = rest := by
  simp only [dropBytes?, Option.map_eq_some_iff, Utf8.charsIn?_eq_some_iff, and_assoc]

theorem partOf?_eq_some_iff {extent : Extent} {cs part : List Char} :
    partOf? extent cs = some part ↔
      ∃ m n, m ≤ n ∧ n ≤ cs.length ∧ Utf8.size (cs.take m) = extent.start ∧
        Utf8.size (cs.take n) = extent.stop ∧ (cs.drop m).take (n - m) = part := by
  constructor
  · intro h
    obtain ⟨rest, hrest, h⟩ := Option.bind_eq_some_iff.mp h
    obtain ⟨u, hguard, h⟩ := Option.bind_eq_some_iff.mp h
    obtain ⟨count, hcount, h⟩ := Option.bind_eq_some_iff.mp h
    obtain ⟨m, hm, hstart, rfl⟩ := dropBytes?_eq_some_iff.mp hrest
    obtain ⟨hlength, hsize⟩ := Utf8.charsIn?_eq_some_iff.mp hcount
    have horder : extent.start ≤ extent.stop := by
      change (if extent.start ≤ extent.stop then some () else none) = some u at hguard
      exact (Option.ite_none_right_eq_some.mp hguard).1
    rw [List.length_drop] at hlength
    refine ⟨m, m + count, Nat.le_add_right _ _, by omega, hstart, ?_, ?_⟩
    · rw [Utf8.size_take_add, hstart, hsize]
      omega
    · rw [Nat.add_sub_cancel_left]
      exact Option.some.inj h
  · rintro ⟨m, n, hmn, hn, hstart, hstop, rfl⟩
    have hrest : dropBytes? extent.start cs = some (cs.drop m) :=
      dropBytes?_eq_some_iff.mpr ⟨m, Nat.le_trans hmn hn, hstart, rfl⟩
    have horder : extent.start ≤ extent.stop := by
      rw [← hstart, ← hstop]
      exact Utf8.size_take_mono hmn cs
    have hcount : Utf8.charsIn? (extent.stop - extent.start) (cs.drop m) = some (n - m) := by
      have hsize := Utf8.size_take_add m (n - m) cs
      rw [Nat.add_sub_cancel' hmn, hstop, hstart] at hsize
      rw [Utf8.charsIn?_eq_some_iff, List.length_drop]
      omega
    have hguard : guard (extent.start ≤ extent.stop) = some () := if_pos horder
    exact Option.bind_eq_some_iff.mpr ⟨_, hrest, Option.bind_eq_some_iff.mpr
      ⟨(), hguard, Option.bind_eq_some_iff.mpr ⟨_, hcount, rfl⟩⟩⟩

/-- An extent has a text if it reaches from one index of the text to another. -/
theorem part?_eq_some_iff {s : SourceText} {extent : Extent} {part : String} :
    s.part? extent = some part ↔
      ∃ m n, m ≤ n ∧ n ≤ s.text.toList.length ∧
        Utf8.size (s.text.toList.take m) = extent.start ∧
        Utf8.size (s.text.toList.take n) = extent.stop ∧
        String.ofList ((s.text.toList.drop m).take (n - m)) = part := by
  simp only [part?, Option.map_eq_some_iff, partOf?_eq_some_iff]
  constructor
  · rintro ⟨_, ⟨m, n, hmn, hn, hstart, hstop, rfl⟩, rfl⟩
    exact ⟨m, n, hmn, hn, hstart, hstop, rfl⟩
  · rintro ⟨m, n, hmn, hn, hstart, hstop, rfl⟩
    exact ⟨_, ⟨m, n, hmn, hn, hstart, hstop, rfl⟩, rfl⟩

theorem le_of_part? {s : SourceText} {a b : Nat} {part : String}
    (h : s.part? ⟨a, b⟩ = some part) : a ≤ b := by
  obtain ⟨m, n, hmn, _, rfl, rfl, _⟩ := part?_eq_some_iff.mp h
  exact Utf8.size_take_mono hmn _

theorem part?_append {s : SourceText} {a b c : Nat} {front back : String}
    (hfront : s.part? ⟨a, b⟩ = some front) (hback : s.part? ⟨b, c⟩ = some back) :
    s.part? ⟨a, c⟩ = some (front ++ back) := by
  obtain ⟨k, m, hkm, hm, ha, hb, rfl⟩ := part?_eq_some_iff.mp hfront
  obtain ⟨m', n, hmn, hn, hb', hc, rfl⟩ := part?_eq_some_iff.mp hback
  obtain rfl : m = m' := Utf8.size_take_inj hm (Nat.le_trans hmn hn) (hb.trans hb'.symm)
  refine part?_eq_some_iff.mpr ⟨k, n, Nat.le_trans hkm hmn, hn, ha, hc, ?_⟩
  rw [← String.ofList_append, show n - k = (m - k) + (n - m) by omega, List.take_add,
    List.drop_drop, Nat.add_sub_cancel' hkm]

theorem char?_of_getElem? {s : SourceText} {n : Nat} {c : Char}
    (h : s.text.toList[n]? = some c) :
    s.char? (Utf8.size (s.text.toList.take n)) = some c := by
  have hn := (List.getElem?_eq_some_iff.mp h).1
  have hdrop : dropBytes? (Utf8.size (s.text.toList.take n)) s.text.toList =
      some (s.text.toList.drop n) :=
    dropBytes?_eq_some_iff.mpr ⟨n, Nat.le_of_lt hn, rfl, rfl⟩
  rw [char?, hdrop, Option.bind_some, List.head?_drop, h]

/-- Bytes are decoded to the text that they are the form of. -/
theorem decode_eq_ok_iff {content : ByteArray} {text : String} :
    decode content = .ok text ↔ text.toUTF8 = content := by
  unfold decode String.fromUTF8?
  by_cases h : content.IsValidUTF8
  · rw [dif_pos h]
    constructor
    · rintro ⟨⟩
      rfl
    · rintro rfl
      rfl
  · rw [dif_neg h]
    refine iff_of_false nofun ?_
    rintro rfl
    exact h text.isValidUTF8

theorem decode_eq_error_iff {content : ByteArray} {cause : ReadError} :
    decode content = .error cause ↔
      cause = .invalidUtf8 ∧ ∀ text : String, text.toUTF8 ≠ content := by
  cases hdecode : decode content with
  | ok text =>
    refine iff_of_false nofun ?_
    rintro ⟨_, hnone⟩
    exact hnone text (decode_eq_ok_iff.mp hdecode)
  | error cause' =>
    have hcause : cause' = .invalidUtf8 := by
      unfold decode at hdecode
      split at hdecode <;> cases hdecode
      rfl
    constructor
    · rintro ⟨⟩
      refine ⟨hcause, fun text htext => ?_⟩
      rw [decode_eq_ok_iff.mpr htext] at hdecode
      cases hdecode
    · rintro ⟨rfl, _⟩
      rw [hcause]

end PhpTokens.SourceText
