import Mathlib.Data.Prod.Lex
import PhpTokens.Proofs.Scan.Run
import PhpTokens.Proofs.Text.Movements

/-! Places in the order of the text. A character that is passed leads to the next column or to the
first column of the next line, whichever rule tells when a line begins. So lines and columns, read
line by line, grow with every character, and two places are ordered as the texts in front of them.
Tokens report places of indices that grow from one to the next, at either anchor. -/

namespace PhpTokens

/-- The line and the column, of which the line decides first. -/
def Place.spot (p : Place) : Nat ×ₗ Nat := toLex (p.line, p.column)

/-- Where the reader stands. -/
def TextReader.spot (k : TextReader) : Nat ×ₗ Nat := toLex (k.line, k.column)

namespace NewlineRule

/-- The spot in front of an index of a text. -/
def spot (rule : NewlineRule) (text : List Char) (k : Nat) : Nat ×ₗ Nat :=
  toLex (rule.line text k, rule.column text k)

theorem spot_lt_succ (rule : NewlineRule) (text : List Char) (k : Nat) :
    rule.spot text k < rule.spot text (k + 1) := by
  rw [spot, spot, Prod.Lex.toLex_lt_toLex, line_succ, column_succ]
  split
  · exact .inl (Nat.lt_succ_self _)
  · exact .inr ⟨rfl, Nat.lt_succ_self _⟩

theorem spot_strictMono (rule : NewlineRule) (text : List Char) : StrictMono (rule.spot text) :=
  strictMono_nat_of_lt_succ (rule.spot_lt_succ text)

end NewlineRule

/-- Of two readers of a text, the one with fewer bytes behind it stands at the earlier spot. -/
theorem TextReader.Reached.offset_lt_iff {rule : NewlineRule} {text : List Char}
    {a b : TextReader} (ha : a.Reached rule text) (hb : b.Reached rule text) :
    a.offset < b.offset ↔ a.spot < b.spot := by
  obtain ⟨m, hm, rfl⟩ := reached_iff.mp ha
  obtain ⟨n, hn, rfl⟩ := reached_iff.mp hb
  have hoffset : Utf8.size (text.take m) < Utf8.size (text.take n) ↔ m < n :=
    Utf8.size_take_lt_iff hn
  exact hoffset.trans (rule.spot_strictMono text).lt_iff_lt.symm

/-- The index whose place the token of a cut reports. -/
def Cut.anchored (anchor : Anchor) (c : Cut) : Nat :=
  match anchor with
  | .start => c.start
  | .finish => c.stop

theorem Cut.spot_token (rules : Rules) (text : List Char) (c : Cut) :
    (c.token rules text).place.spot = rules.newlines.spot text (c.anchored rules.anchor) := by
  cases hanchor : rules.anchor <;> simp only [token, anchored, hanchor] <;> rfl

section Cutting

variable {rules : Rules} {text : List Char} {n : Nat} {cuts : List Cut} {ending : Ending}

theorem Cutting.pairwise_anchored (h : Cutting rules text n cuts ending) (anchor : Anchor) :
    cuts.Pairwise fun a b => a.anchored anchor < b.anchored anchor := by
  cases anchor with
  | start =>
    refine h.pairwise_le.imp_of_mem ?_
    intro a b ha _ hle
    exact Nat.lt_of_lt_of_le (h.inner a ha).2.1 hle
  | finish => exact h.pairwise

theorem Cutting.anchored_le (h : Cutting rules text n cuts ending) (anchor : Anchor) {c : Cut}
    (hc : c ∈ cuts) : c.anchored anchor ≤ text.length := by
  obtain ⟨_, hlt, hle⟩ := h.inner c hc
  cases anchor with
  | start => exact Nat.le_trans (Nat.le_of_lt hlt) hle
  | finish => exact hle

end Cutting

/-- Places order the text. Of two readers that movements lead to, the one with fewer bytes behind it
stands on an earlier line, or in an earlier column of the same line, and the other way round. In a
scan that succeeds, every token in front of the end of the text reports a later place than the one
before it, and the end itself no earlier place than any of them. -/
theorem places_order_text (rules : Rules) (text : String) :
    (∀ a b : TextReader, a.Reached rules.newlines text.toList →
      b.Reached rules.newlines text.toList → (a.offset < b.offset ↔ a.spot < b.spot)) ∧
    ∀ ts, tokens rules text = .ok ts →
      ∃ inner last, ts = inner ++ [last] ∧
        (∀ t ∈ inner, t.kind ≠ .endOfInput) ∧ last.kind = .endOfInput ∧
        inner.Pairwise (fun t t' => t.place.spot < t'.place.spot) ∧
        ∀ t ∈ inner, t.place.spot ≤ last.place.spot := by
  refine ⟨fun a b ha hb => ha.offset_lt_iff hb, ?_⟩
  intro ts hts
  obtain ⟨cuts, ending, hcut⟩ := exists_cutting rules (Nat.zero_le text.toList.length)
  have hmono := rules.newlines.spot_strictMono text.toList
  rw [tokens_of_cutting hcut] at hts
  cases ending with
  | broken start fault => cases hts
  | complete =>
    refine ⟨cuts.map (Cut.token rules text.toList), endOf rules text.toList,
      (Except.ok.inj hts).symm, ?_, rfl, ?_, ?_⟩
    · intro t ht
      obtain ⟨c, hc, rfl⟩ := List.mem_map.mp ht
      exact (hcut.inner c hc).1
    · rw [List.pairwise_map]
      refine (hcut.pairwise_anchored rules.anchor).imp ?_
      intro a b hlt
      rw [Cut.spot_token, Cut.spot_token]
      exact hmono hlt
    · intro t ht
      obtain ⟨c, hc, rfl⟩ := List.mem_map.mp ht
      rw [Cut.spot_token]
      exact hmono.monotone (hcut.anchored_le rules.anchor hc)

end PhpTokens
