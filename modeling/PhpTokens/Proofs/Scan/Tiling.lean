import PhpTokens.Proofs.Scan.Run
import PhpTokens.Proofs.SourceText

/-! Nothing is lost and nothing is read twice: blanks and tokens in turn cover the source, up to its
end or up to the character that an error is about. -/

namespace PhpTokens

/-- Tiles that cover a source from one byte to another. A tile is a token and the blanks in front
of it, both as they stand in the source. -/
inductive Tiling (source : SourceText) : Nat → List (String × Token) → Nat → Prop where
  | done (p : Nat) : Tiling source p [] p
  | tile {p q : Nat} {gap : String} {token : Token} {more : List (String × Token)}
      (gap_eq : source.part? ⟨p, token.extent.start⟩ = some gap)
      (blank : ∀ c ∈ gap.toList, CharClass.isBlank c = true)
      (inner : token.kind ≠ .endOfInput)
      (advances : token.extent.start < token.extent.stop)
      (text_eq : source.part? token.extent = some token.text)
      (rest : Tiling source token.extent.stop more q) :
      Tiling source p ((gap, token) :: more) q

/-- The text of the tiles. -/
def weave (tiles : List (String × Token)) : String :=
  String.join (tiles.map fun tile => tile.1 ++ tile.2.text)

theorem weave_cons (gap : String) (token : Token) (more : List (String × Token)) :
    weave ((gap, token) :: more) = gap ++ token.text ++ weave more := by
  simp [weave, String.join_cons]

/-- The tiles rebuild what they cover. -/
theorem Tiling.part?_weave {source : SourceText} {p q : Nat} {tiles : List (String × Token)}
    (h : Tiling source p tiles q) (hp : source.part? ⟨p, p⟩ = some "") :
    source.part? ⟨p, q⟩ = some (weave tiles) := by
  induction h with
  | done p => exact hp
  | @tile p q gap token more gap_eq _ _ _ text_eq _ ih =>
    have hstop : source.part? ⟨token.extent.stop, token.extent.stop⟩ = some "" := by
      obtain ⟨m, n, _, hn, _, hsize, _⟩ := SourceText.part?_eq_some_iff.mp text_eq
      refine SourceText.part?_eq_some_iff.mpr ⟨n, n, Nat.le_refl _, hn, hsize, hsize, ?_⟩
      simp
    rw [weave_cons]
    exact SourceText.part?_append (SourceText.part?_append gap_eq text_eq) (ih hstop)

theorem Tiling.start_le {source : SourceText} {p q : Nat} {tiles : List (String × Token)}
    (h : Tiling source p tiles q) : ∀ tile ∈ tiles, p ≤ tile.2.extent.start := by
  induction h with
  | done p => simp
  | @tile p q gap token more gap_eq _ _ advances _ _ ih =>
    have hle := SourceText.le_of_part? gap_eq
    intro tile htile
    rcases List.mem_cons.mp htile with rfl | hmore
    · exact hle
    · exact Nat.le_trans hle (Nat.le_trans (Nat.le_of_lt advances) (ih tile hmore))

/-- Tiles are in order and do not overlap. -/
theorem Tiling.pairwise {source : SourceText} {p q : Nat} {tiles : List (String × Token)}
    (h : Tiling source p tiles q) :
    (tiles.map (·.2)).Pairwise fun a b => a.extent.stop ≤ b.extent.start := by
  induction h with
  | done p => exact List.Pairwise.nil
  | @tile p q gap token more _ _ _ _ _ rest ih =>
    refine List.Pairwise.cons ?_ ih
    intro b hb
    obtain ⟨tile, htile, rfl⟩ := List.mem_map.mp hb
    exact rest.start_le tile htile

/-- The part of a source between two indices. -/
theorem part?_between (text : String) {m n : Nat} (hmn : m ≤ n) (hn : n ≤ text.toList.length) :
    SourceText.part? { text }
        ⟨Utf8.size (text.toList.take m), Utf8.size (text.toList.take n)⟩ =
      some (String.ofList ((text.toList.drop m).take (n - m))) :=
  SourceText.part?_eq_some_iff.mpr ⟨m, n, hmn, hn, rfl, rfl, rfl⟩

/-- The cuts of a division are tiles, and blanks follow the last one. -/
theorem Cutting.tiling {rules : Rules} {text : String} {n : Nat} {cuts : List Cut}
    {ending : Ending} (h : Cutting rules text.toList n cuts ending) :
    ∃ tiles m,
      Tiling { text } (Utf8.size (text.toList.take n)) tiles (Utf8.size (text.toList.take m)) ∧
      tiles.map (·.2) = cuts.map (Cut.token rules text.toList) ∧
      Blanks text.toList m (ending.index text.toList) := by
  induction h with
  | complete hblank => exact ⟨[], _, .done _, rfl, hblank⟩
  | broken hlead _ => exact ⟨[], _, .done _, rfl, hlead.blanks⟩
  | @cut n s c piece cuts ending hlead hread _ ih =>
    obtain ⟨tiles, m, htiling, htokens, hblanks⟩ := ih
    have hpos := Lexeme.read_pos hread
    have hstop := hlead.stop_le hread
    have hgap := part?_between text hlead.blanks.le hlead.blanks.stop_le
    refine ⟨(String.ofList ((text.toList.drop n).take (s - n)),
      Cut.token rules text.toList ⟨s, piece⟩) :: tiles, m, ?_, ?_, hblanks⟩
    · refine .tile hgap ?_ (Lexeme.kind_ne_endOfInput hread) ?_ ?_ htiling
      · rw [String.toList_ofList]
        exact hlead.blanks.blank
      · exact Utf8.size_take_lt (Nat.lt_add_of_pos_right hpos) hstop
      · have htext := part?_between text (Nat.le_add_right s piece.length) hstop
        rwa [Nat.add_sub_cancel_left] at htext
    · rw [List.map_cons, List.map_cons, htokens]

theorem part?_whole (text : String) :
    SourceText.part? { text } ⟨0, Utf8.size text.toList⟩ = some text := by
  have hpart := part?_between text (Nat.zero_le text.toList.length) (Nat.le_refl _)
  simpa using hpart

/-- Lossless tiling. The tokens that requests deliver before the end of the text or the first error
cover the source from its first byte on, with nothing but blanks in front of each. At the end of the
text the blanks behind them complete the source, and the end itself is delivered once and last;
before an error they lead to the character that the error is about. -/
theorem emitted_tile (rules : Rules) (text : String) :
    ∃ (tiles : List (String × Token)) (p q : Nat) (gap : String),
      Tiling { text } 0 tiles p ∧
      (tiles.map (·.2)).Pairwise (fun a b => a.extent.stop ≤ b.extent.start) ∧
      SourceText.part? { text } ⟨p, q⟩ = some gap ∧
      (∀ c ∈ gap.toList, CharClass.isBlank c = true) ∧
      SourceText.part? { text } ⟨0, q⟩ = some (weave tiles ++ gap) ∧
      match tokens rules text with
      | .ok ts => ∃ last : Token,
          ts = tiles.map (·.2) ++ [last] ∧ emitted rules text = ts ∧
          last.kind = .endOfInput ∧ last.text = "" ∧
          last.extent = ⟨SourceText.size { text }, SourceText.size { text }⟩ ∧
          q = SourceText.size { text } ∧ weave tiles ++ gap = text
      | .error error =>
          emitted rules text = tiles.map (·.2) ∧
          SourceText.char? { text } q = some error.fault.mark := by
  obtain ⟨cuts, ending, hcut⟩ := exists_cutting rules (Nat.zero_le text.toList.length)
  obtain ⟨tiles, m, htiling, htokens, hblanks⟩ := hcut.tiling
  rw [List.take_zero, Utf8.size_nil] at htiling
  have hempty : SourceText.part? { text } ⟨0, 0⟩ = some "" := by
    simpa using part?_between text (Nat.le_refl 0) (Nat.zero_le _)
  have hgap := part?_between text hblanks.le hblanks.stop_le
  have hweave := SourceText.part?_append (htiling.part?_weave hempty) hgap
  refine ⟨tiles, _, _, _, htiling, htiling.pairwise, hgap, ?_, hweave, ?_⟩
  · rw [String.toList_ofList]
    exact hblanks.blank
  rw [tokens_of_cutting hcut, emitted_of_cutting hcut, htokens]
  cases ending with
  | complete =>
    have hwhole : Utf8.size (text.toList.take (Ending.complete.index text.toList)) =
        Utf8.size text.toList := by
      rw [Ending.index, List.take_length]
    refine ⟨endOf rules text.toList, rfl, rfl, rfl, rfl, rfl, hwhole, ?_⟩
    rw [hwhole, part?_whole] at hweave
    exact (Option.some.inj hweave).symm
  | broken start fault =>
    exact ⟨List.append_nil _, SourceText.char?_of_getElem? (hcut.mark rfl).1⟩

end PhpTokens
