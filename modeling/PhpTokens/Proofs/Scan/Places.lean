import PhpTokens.Proofs.Scan.Run

/-! The places that a scan reports, in closed form. A place is a function of the text and an index:
of where a piece begins, or of where it ends if tokens are anchored there. -/

namespace PhpTokens

/-- The byte behind the last of some tokens. -/
def lastStop (ts : List Token) : Nat := (ts.getLast?.map (·.extent.stop)).getD 0

/-- Blanks lead from the last cut to the ending. -/
theorem Cutting.blanks_ending {rules : Rules} {text : List Char} {n : Nat} {cuts : List Cut}
    {ending : Ending} (h : Cutting rules text n cuts ending) :
    Blanks text ((cuts.getLast?.map Cut.stop).getD n) (ending.index text) := by
  induction h with
  | complete hblank => exact hblank
  | broken hlead _ => exact hlead.blanks
  | @cut n s c piece cuts ending _ _ _ ih =>
    have hlast : (((⟨s, piece⟩ :: cuts).getLast?.map Cut.stop).getD n) =
        (cuts.getLast?.map Cut.stop).getD (s + piece.length) := by
      rw [List.getLast?_cons]
      cases cuts.getLast? <;> rfl
    rw [hlast]
    exact ih

theorem lastStop_map_token (rules : Rules) (text : List Char) (cuts : List Cut) :
    lastStop (cuts.map (Cut.token rules text)) =
      Utf8.size (text.take ((cuts.getLast?.map Cut.stop).getD 0)) := by
  rw [lastStop, List.getLast?_map]
  cases cuts.getLast? <;> rfl

/-- Places in closed form. Every token in front of the end of the text covers the characters from an
index `s` up to an index `e` and reports the place of one of them and their number; the end of the
text reports the place behind the last character; an error reports the place of the character that
it is about, which is the first behind the last token that is not blank. -/
theorem emitted_places (rules : Rules) (text : String) :
    (∀ t ∈ emitted rules text, t.kind ≠ .endOfInput →
      ∃ s e, s < e ∧ e ≤ text.toList.length ∧
        t.extent = ⟨Utf8.size (text.toList.take s), Utf8.size (text.toList.take e)⟩ ∧
        t.place = rules.newlines.place text.toList
          (match rules.anchor with | .start => s | .finish => e) (e - s)) ∧
    (∀ t ∈ emitted rules text, t.kind = .endOfInput →
      t.place = rules.newlines.place text.toList text.toList.length 1) ∧
    (∀ error, tokens rules text = .error error →
      ∃ n s, lastStop (emitted rules text) = Utf8.size (text.toList.take n) ∧
        Blanks text.toList n s ∧ text.toList[s]? = some error.fault.mark ∧
        CharClass.isBlank error.fault.mark = false ∧
        error.line = rules.newlines.line text.toList s ∧
        error.column = rules.newlines.column text.toList s) := by
  obtain ⟨cuts, ending, hcut⟩ := exists_cutting rules (Nat.zero_le text.toList.length)
  have hemitted := emitted_of_cutting hcut
  refine ⟨?_, ?_, ?_⟩
  · intro t ht hkind
    rw [hemitted] at ht
    rcases List.mem_append.mp ht with ht | ht
    · obtain ⟨c, hc, rfl⟩ := List.mem_map.mp ht
      obtain ⟨_, hlt, hle⟩ := hcut.inner c hc
      refine ⟨c.start, c.stop, hlt, hle, rfl, ?_⟩
      rw [Cut.stop, Nat.add_sub_cancel_left]
      cases hanchor : rules.anchor <;> simp [Cut.token, Cut.stop, hanchor]
    · cases ending with
      | complete => exact absurd (List.mem_singleton.mp ht ▸ rfl) hkind
      | broken start fault => cases ht
  · intro t ht hkind
    rw [hemitted] at ht
    rcases List.mem_append.mp ht with ht | ht
    · obtain ⟨c, hc, rfl⟩ := List.mem_map.mp ht
      exact absurd hkind (hcut.inner c hc).1
    · cases ending with
      | complete => exact List.mem_singleton.mp ht ▸ rfl
      | broken start fault => cases ht
  · intro error herror
    rw [tokens_of_cutting hcut] at herror
    cases ending with
    | complete => cases herror
    | broken start fault =>
      cases herror
      refine ⟨_, start, ?_, hcut.blanks_ending, (hcut.mark rfl).1,
        (hcut.mark rfl).2, rfl, rfl⟩
      have hnone : ((Ending.broken start fault).outcome rules text.toList).toOption.toList = [] :=
        rfl
      rw [hemitted, hnone, List.append_nil, lastStop_map_token]

end PhpTokens
