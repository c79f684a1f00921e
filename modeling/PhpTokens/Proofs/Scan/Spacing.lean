import PhpTokens.Proofs.Scan.Reading
import PhpTokens.Proofs.Scan.Run

/-! Tokens that are written one after another, with blanks between them, are read back as they were,
whatever texts they come from and whatever blanks are chosen. A blank ends every piece but a
comment, which ends only before a line break; and a piece that one text contains is read wherever
its characters and a character that ends it stand. -/

namespace PhpTokens

/-- Some strict scan delivers a token of this kind with this text. -/
def Occurs (rule : KeywordRule) (kind : Kind) (w : String) : Prop :=
  ∃ rules source ts, rules.keywords = rule ∧ rules.unterminated = .strict ∧
    tokens rules source = .ok ts ∧ ∃ t ∈ ts, t.kind = kind ∧ t.text = w ∧ t.kind ≠ .endOfInput

/-- A kind and a text, and the blanks that are written behind the text. -/
structure Written where
  kind : Kind
  text : String
  gap : String
  deriving DecidableEq

/-- There are blanks behind the text, and a line break if it is a comment. -/
structure Written.IsSpaced (item : Written) : Prop where
  nonempty : item.gap ≠ ""
  blank : ∀ c ∈ item.gap.toList, CharClass.isBlank c = true
  comment : item.kind = .comment → item.gap.toList.head? = some '\n'

/-- The texts with their gaps, behind some blanks. -/
def written (lead : String) (items : List Written) : String :=
  lead ++ String.join (items.map fun item => item.text ++ item.gap)

def Written.chars (item : Written) : List Char := item.text.toList ++ item.gap.toList

theorem toList_written (lead : String) (items : List Written) :
    (written lead items).toList = lead.toList ++ items.flatMap Written.chars := by
  rw [written, String.toList_append]
  congr 1
  induction items with
  | nil => rfl
  | cons item items ih =>
    rw [List.map_cons, String.join_cons, String.toList_append, ih, String.toList_append]
    rfl

/-- A blank, or the line break behind a comment, ends a piece that another character has ended. -/
theorem Lexeme.Reads.before_blank {rules : Rules} {w : List Char} {next : Option Char}
    {piece : Lexeme} (h : Reads rules w next piece) (hclosed : piece.isClosed = true) {b : Char}
    (hblank : CharClass.isBlank b = true) (hcomment : piece.kind = .comment → b = '\n') :
    Reads rules w (some b) piece := by
  have hword : Stops CharClass.isWordPart (some b) := by
    rintro c ⟨⟩
    exact CharClass.isWordPart_of_isBlank hblank
  cases h with
  | keyword spelled _ => exact .keyword spelled fun _ => hword
  | identifier word spared _ => exact .identifier word spared hword
  | variableName parts _ => exact .variableName parts hword
  | number plain numerals _ =>
    exact .number plain numerals fun c hc => CharClass.isNumeral_eq_false (hword c hc)
  | string inner => exact .string inner
  | comment inner => exact hcomment rfl ▸ .comment inner
  | openString _ _ | openComment _ _ => cases hclosed
  | @symbol s _ _ =>
    refine .symbol ?_
    rintro t c ⟨⟩ hspelling
    have hmem : b ∈ t.spelling := by simp [hspelling]
    rw [Symbol.not_isBlank_spelling hmem] at hblank
    cases hblank

/-- What occurs in one text is read as the same piece in front of a blank. -/
theorem Occurs.reads {rules : Rules} {kind : Kind} {w : String}
    (h : Occurs rules.keywords kind w) {b : Char} (hblank : CharClass.isBlank b = true)
    (hcomment : kind = .comment → b = '\n') :
    ∃ piece, piece.kind = kind ∧ Lexeme.Reads rules w.toList (some b) piece ∧
      ∃ d, w.toList.head? = some d ∧ CharClass.isBlank d = false := by
  obtain ⟨rules', source, ts, hkeywords, hstrict, hts, t, ht, rfl, rfl, hkind⟩ := h
  obtain ⟨cuts, ending, hcut⟩ := exists_cutting rules' (Nat.zero_le source.toList.length)
  rw [← emitted_of_tokens hts] at ht
  obtain ⟨c, hc, rfl⟩ := exists_cut_of_emitted hcut ht hkind
  obtain ⟨after, _, hreads, hsolid⟩ := hcut.exists_reads hc
  have hclosed := hreads.isClosed (.inl hstrict)
  rw [Cut.token, String.toList_ofList]
  exact ⟨c.piece, rfl,
    (hreads.before_blank hclosed hblank hcomment).of_rules hkeywords.symm hclosed, hsolid⟩

/-- A written token is read back, whatever stands behind its gap. -/
theorem Written.exists_read {rules : Rules} {item : Written}
    (hoccurs : Occurs rules.keywords item.kind item.text) (hspaced : item.IsSpaced)
    (rest : List Char) :
    ∃ piece c more, item.chars ++ rest = c :: more ∧ CharClass.isBlank c = false ∧
      Lexeme.read rules c more = .ok piece ∧ piece.kind = item.kind ∧
      piece.length = item.text.toList.length := by
  obtain ⟨b, blanks, hgap⟩ : ∃ b blanks, item.gap.toList = b :: blanks :=
    List.exists_cons_of_ne_nil (by simpa using hspaced.nonempty)
  have hblank := hspaced.blank b (by simp [hgap])
  have hcomment : item.kind = .comment → b = '\n' := fun hkind => by
    simpa [hgap] using hspaced.comment hkind
  obtain ⟨piece, hkind, hreads, c, hc, hsolid⟩ := hoccurs.reads hblank hcomment
  obtain ⟨more, hmore⟩ := List.head?_eq_some_iff.mp hc
  have htext : item.text.toList ++ (b :: blanks ++ rest) =
      c :: (more ++ (b :: blanks ++ rest)) := by
    rw [hmore, List.cons_append]
  refine ⟨piece, c, _, ?_, hsolid, hreads.read htext, hkind, hreads.length_eq⟩
  rw [Written.chars, List.append_assoc, hgap, htext]

/-- Where written tokens follow, they are cut out of the text one by one. -/
theorem exists_cutting_written {rules : Rules} {text : List Char} {items : List Written}
    (hitems : ∀ item ∈ items, Occurs rules.keywords item.kind item.text ∧ item.IsSpaced)
    {n : Nat} (hn : n ≤ text.length) {gap : List Char}
    (hgap : ∀ b ∈ gap, CharClass.isBlank b = true)
    (hdrop : text.drop n = gap ++ items.flatMap Written.chars) :
    ∃ cuts, Cutting rules text n cuts .complete ∧
      cuts.map (fun c => (c.piece.kind, String.ofList (c.chars text))) =
        items.map fun item => (item.kind, item.text) := by
  -- the gap of one item is what stands in front of the next one
  induction items generalizing n gap with
  | nil =>
    rw [List.flatMap_nil, List.append_nil] at hdrop
    refine ⟨[], .complete ⟨hn, Nat.le_refl _, ?_⟩, rfl⟩
    rw [← List.length_drop, List.take_length, hdrop]
    exact hgap
  | cons item items ih =>
    obtain ⟨hoccurs, hspaced⟩ := hitems item List.mem_cons_self
    obtain ⟨piece, c, more, htext, hsolid, hread, hkind, hlength⟩ :=
      Written.exists_read hoccurs hspaced (items.flatMap Written.chars)
    rw [List.flatMap_cons, htext] at hdrop
    have hlead := lead_of_drop_eq hn hdrop hgap hsolid
    have hstart : text.drop (n + gap.length) = c :: more := by
      rw [← List.drop_drop, hdrop, List.drop_left]
    have hread' : Lexeme.read rules c (text.drop (n + gap.length + 1)) = .ok piece := by
      rwa [← List.drop_drop, hstart, List.drop_one, List.tail_cons]
    rw [← htext, Written.chars, List.append_assoc] at hstart
    have hrest : text.drop (n + gap.length + piece.length) =
        item.gap.toList ++ items.flatMap Written.chars := by
      rw [← List.drop_drop, hstart, hlength, List.drop_left]
    obtain ⟨cuts, hcut, hcuts⟩ := ih (fun i hi => hitems i (List.mem_cons_of_mem _ hi))
      (hlead.stop_le hread') hspaced.blank hrest
    refine ⟨_, .cut hlead hread' hcut, ?_⟩
    have hchars : Cut.chars text ⟨n + gap.length, piece⟩ = item.text.toList := by
      rw [Cut.chars, hstart, hlength, List.take_left]
    rw [List.map_cons, List.map_cons, hcuts, hchars, hkind, String.ofList_toList]

/-- Writing tokens and reading them again gives the same tokens. They may come from many texts;
what stands between them is blank and not empty, and breaks the line behind a comment. -/
theorem tokens_written (rules : Rules) (lead : String) (items : List Written)
    (hlead : ∀ c ∈ lead.toList, CharClass.isBlank c = true)
    (hitems : ∀ item ∈ items, Occurs rules.keywords item.kind item.text ∧ item.IsSpaced) :
    ∃ ts, tokens rules (written lead items) = .ok ts ∧
      ts.map (fun t => (t.kind, t.text)) =
        items.map (fun item => (item.kind, item.text)) ++ [(.endOfInput, "")] := by
  obtain ⟨cuts, hcut, hcuts⟩ := exists_cutting_written hitems
    (Nat.zero_le (written lead items).toList.length) hlead (toList_written lead items)
  refine ⟨_, tokens_of_cutting hcut, ?_⟩
  rw [← hcuts, List.map_append, List.map_map]
  rfl

/-- The rest of a cut word, signs that would join if they touched, and a comment that keeps its
carriage return, in another order and with other blanks. -/
theorem tokens_written_pieces :
    let items : List Written :=
      [⟨.comment, "#\r", "\n"⟩, ⟨.symbol .assign, "=", " "⟩, ⟨.symbol .assign, "=", "\t"⟩,
        ⟨.identifier, "ify_é", "\u00a0"⟩, ⟨.keyword .classWord, "class", "\n\n"⟩]
    (∀ c ∈ "\n".toList, CharClass.isBlank c = true) ∧
      (∀ item ∈ items, Occurs Rules.legacy.keywords item.kind item.text ∧ item.IsSpaced) ∧
      ∃ ts, tokens .legacy (written "\n" items) = .ok ts ∧
        ts.map (fun t => (t.kind, t.text)) =
          items.map (fun item => (item.kind, item.text)) ++ [(.endOfInput, "")] := by
  intro items
  have hall : "\n".toList.all CharClass.isBlank = true := by decide +kernel
  have hlead := List.all_eq_true.mp hall
  have hitems : ∀ item ∈ items,
      Occurs Rules.legacy.keywords item.kind item.text ∧ item.IsSpaced := by
    obtain ⟨ts, hts, hmem⟩ : ∃ ts, tokens { keywords := .leading } "classify_é=(#\r\n" = .ok ts ∧
        ∀ item ∈ items, ∃ t ∈ ts, t.kind = item.kind ∧ t.text = item.text ∧
          t.kind ≠ .endOfInput := by
      refine ⟨[⟨.keyword .classWord, "class", ⟨1, 1, 5⟩, ⟨0, 5⟩⟩,
        ⟨.identifier, "ify_é", ⟨1, 6, 5⟩, ⟨5, 11⟩⟩, ⟨.symbol .assign, "=", ⟨1, 11, 1⟩, ⟨11, 12⟩⟩,
        ⟨.symbol .openParen, "(", ⟨1, 12, 1⟩, ⟨12, 13⟩⟩, ⟨.comment, "#\r", ⟨1, 13, 2⟩, ⟨13, 15⟩⟩,
        ⟨.endOfInput, "", ⟨2, 1, 1⟩, ⟨16, 16⟩⟩], ?_, ?_⟩ <;> decide +kernel
    have hspaced : ∀ item ∈ items, item.gap ≠ "" ∧
        item.gap.toList.all CharClass.isBlank = true ∧
        (item.kind = .comment → item.gap.toList.head? = some '\n') := by decide +kernel
    intro item hitem
    obtain ⟨hgap, hblank, hcomment⟩ := hspaced item hitem
    exact ⟨⟨{ keywords := .leading }, _, ts, rfl, rfl, hts, hmem item hitem⟩,
      hgap, List.all_eq_true.mp hblank, hcomment⟩
  exact ⟨hlead, hitems, tokens_written .legacy "\n" items hlead hitems⟩

end PhpTokens
