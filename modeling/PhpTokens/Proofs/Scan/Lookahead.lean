import PhpTokens.Proofs.Scan.Reading
import PhpTokens.Proofs.Scan.Requests

/-! One character of lookahead. Texts that begin alike are scanned alike, up to the last token that
ends before their common part does: what stands behind the character that follows a token changes
neither the token nor any token in front of it. -/

namespace PhpTokens

/-- A piece that ends inside a front of the text is read whatever follows that front. -/
theorem Lexeme.read_append {rules : Rules} {c : Char} {front back : List Char} {piece : Lexeme}
    (h : read rules c (front ++ back) = .ok piece) (hle : piece.length ≤ front.length)
    (back' : List Char) : read rules c (front ++ back') = .ok piece := by
  obtain ⟨w, after, htext, hreads⟩ := exists_reads h
  have hlength := hreads.length_eq
  rw [← List.cons_append] at htext
  -- the piece ends inside the front, so that a character of the front comes next
  rcases List.append_eq_append_iff.mp htext with ⟨extra, hw, _⟩ | ⟨more, hfront, rfl⟩
  · have hextra := congrArg List.length hw
    rw [List.length_append, List.length_cons] at hextra
    omega
  · cases more with
    | nil =>
      have hsame := congrArg List.length hfront
      rw [List.append_nil, List.length_cons] at hsame
      omega
    | cons d more =>
      have hreads' : Reads rules w (d :: more ++ back').head? piece := hreads
      apply hreads'.read
      rw [← List.append_assoc, ← hfront]
      rfl

section Front

variable {front : List Char} {k : Nat}

theorem take_drop_append {n m : Nat} (h : n + m ≤ front.length) (back : List Char) :
    ((front ++ back).drop n).take m = (front.drop n).take m := by
  rw [List.drop_append_of_le_length (by omega),
    List.take_append_of_le_length (by rw [List.length_drop]; omega)]

theorem NewlineRule.place_append (rule : NewlineRule) (hk : k < front.length)
    (back : List Char) (length : Nat) :
    rule.place (front ++ back) k length = rule.place front k length := by
  simp only [place, line, column, breaks_append rule hk back]

theorem Cut.token_append {c : Cut} (h : c.stop < front.length) (rules : Rules)
    (back : List Char) : c.token rules (front ++ back) = c.token rules front := by
  have hstart : c.start < front.length := Nat.lt_of_le_of_lt (Nat.le_add_right _ _) h
  have htext := take_drop_append (m := c.piece.length) (Nat.le_of_lt h) back
  simp only [token, htext, List.take_append_of_le_length (Nat.le_of_lt hstart),
    List.take_append_of_le_length (Nat.le_of_lt h), NewlineRule.place_append _ hstart,
    NewlineRule.place_append _ h]

theorem Lead.append {n : Nat} {c : Char} {back : List Char} (h : Lead (front ++ back) n k c)
    (hk : k < front.length) (back' : List Char) : Lead (front ++ back') n k c := by
  have hle := h.blanks.le
  have hfront : n + (k - n) ≤ front.length := by omega
  refine ⟨⟨hle, ?_, ?_⟩, ?_, h.solid⟩
  · rw [List.length_append]
    omega
  · rw [take_drop_append hfront, ← take_drop_append hfront back]
    exact h.blanks.blank
  · have hhere := h.here
    rwa [List.getElem?_append_left hk] at hhere ⊢

end Front

/-- Texts with a common front are cut alike up to a cut that ends before the front does. -/
theorem Cutting.exists_append {rules : Rules} {front back : List Char} {n : Nat}
    {cuts : List Cut} {ending : Ending} (h : Cutting rules (front ++ back) n cuts ending)
    (back' : List Char) {i : Nat} {c : Cut} (hi : cuts[i]? = some c)
    (hstop : c.stop < front.length) :
    ∃ cuts' ending', Cutting rules (front ++ back') n cuts' ending' ∧
      ∀ j ≤ i, cuts'[j]? = cuts[j]? := by
  induction h generalizing i with
  | complete _ | broken _ _ => cases hi
  | @cut n s d piece cuts ending hlead hread hrest ih =>
    -- the first cut ends at the latest where `c` does
    have hend : s + piece.length ≤ c.stop := by
      cases i with
      | zero =>
        cases hi
        exact Nat.le_refl _
      | succ i =>
        have hmem : c ∈ cuts := List.mem_of_getElem? hi
        have hstart := hrest.start_ge c hmem
        have hinner := (hrest.inner c hmem).2.1
        omega
    have hpos := Lexeme.read_pos hread
    have hlead' := hlead.append (by omega) back'
    have hread' : Lexeme.read rules d ((front ++ back').drop (s + 1)) = .ok piece := by
      rw [List.drop_append_of_le_length (by omega)] at hread ⊢
      exact Lexeme.read_append hread (by rw [List.length_drop]; omega) back'
    cases i with
    | zero =>
      obtain ⟨cuts', ending', hcut⟩ := exists_cutting rules (hlead'.stop_le hread')
      refine ⟨_, ending', .cut hlead' hread' hcut, ?_⟩
      intro j hj
      rw [Nat.le_zero.mp hj]
      rfl
    | succ i =>
      obtain ⟨cuts', ending', hcut, hsame⟩ := ih hi
      refine ⟨_, ending', .cut hlead' hread' hcut, ?_⟩
      intro j hj
      cases j with
      | zero => rfl
      | succ j => exact hsame j (Nat.le_of_succ_le_succ hj)

/-- Up to a cut that ends before a front does, the results are the same for all texts that begin
with the front. -/
theorem Cutting.result_append {rules : Rules} {front back : List Char} {cuts : List Cut}
    {ending : Ending} (h : Cutting rules (front ++ back) 0 cuts ending) (back' : List Char)
    {i : Nat} {c : Cut} (hi : cuts[i]? = some c) (hstop : c.stop < front.length) :
    ∀ j ≤ i, (Scanner.behind rules (front ++ back') 0).result j =
      (Scanner.behind rules (front ++ back) 0).result j := by
  intro j hj
  obtain ⟨cuts', ending', hcut', hsame⟩ := h.exists_append back' hi hstop
  obtain ⟨hlt, rfl⟩ := List.getElem?_eq_some_iff.mp hi
  have hjlt : j < cuts.length := Nat.lt_of_le_of_lt hj hlt
  have hjstop : cuts[j].stop < front.length := by
    rcases Nat.lt_or_eq_of_le hj with hbefore | rfl
    · exact Nat.lt_trans (List.pairwise_iff_getElem.mp h.pairwise j i hjlt hlt hbefore) hstop
    · exact hstop
  rw [Scanner.result_of_cutting h, Scanner.result_of_cutting hcut', hsame j hj,
    List.getElem?_eq_getElem hjlt]
  simp only [Option.elim_some, Cut.token_append hjstop]

/-- One character of lookahead suffices. If a request delivers a token that ends before the common
front of two texts does, then this request and all before it deliver the same for both texts. -/
theorem result_of_common_front (rules : Rules) (front back back' : String) {i : Nat}
    {token : Token} (hresult : (Scanner.start rules (front ++ back)).result i = .ok token)
    (hkind : token.kind ≠ .endOfInput)
    (hstop : token.extent.stop < Utf8.size front.toList) :
    (Scanner.start rules (front ++ back')).result i = .ok token ∧
      ∀ j < i, (Scanner.start rules (front ++ back')).result j =
        (Scanner.start rules (front ++ back)).result j := by
  simp only [Scanner.start_eq_behind, String.toList_append] at hresult ⊢
  obtain ⟨cuts, ending, hcut⟩ :=
    exists_cutting rules (Nat.zero_le (front.toList ++ back.toList).length)
  obtain ⟨c, hc, rfl⟩ := Scanner.exists_cut_of_result hcut hresult hkind
  have hinside : c.stop < front.toList.length := by
    apply Nat.lt_of_not_le
    intro hle
    have hsize := Utf8.size_take_mono hle (front.toList ++ back.toList)
    rw [List.take_left] at hsize
    exact absurd hstop (Nat.not_lt.mpr hsize)
  have hall := hcut.result_append back'.toList hc hinside
  exact ⟨(hall i (Nat.le_refl i)).trans hresult, fun j hj => hall j (Nat.le_of_lt hj)⟩

/-- The variable ends before the line break, whose place it reports; an open literal behind the
break makes no difference. -/
theorem result_of_common_front_legacy :
    let token : Token := ⟨.variableName, "$b", ⟨2, 1, 2⟩, ⟨6, 8⟩⟩
    (Scanner.start .legacy ("<?php $b\n" ++ "\"x")).result 1 = .ok token ∧
      token.kind ≠ .endOfInput ∧ token.extent.stop < Utf8.size "<?php $b\n".toList ∧
      (Scanner.start .legacy ("<?php $b\n" ++ "= 3")).result 1 = .ok token ∧
      ∀ j < 1, (Scanner.start .legacy ("<?php $b\n" ++ "= 3")).result j =
        (Scanner.start .legacy ("<?php $b\n" ++ "\"x")).result j := by
  have hresult : (Scanner.start .legacy ("<?php $b\n" ++ "\"x")).result 1 =
      .ok ⟨.variableName, "$b", ⟨2, 1, 2⟩, ⟨6, 8⟩⟩ := by decide +kernel
  have hstop : 8 < Utf8.size "<?php $b\n".toList := by decide +kernel
  exact ⟨hresult, by decide, hstop,
    result_of_common_front .legacy "<?php $b\n" "\"x" "= 3" hresult (by decide) hstop⟩

end PhpTokens
