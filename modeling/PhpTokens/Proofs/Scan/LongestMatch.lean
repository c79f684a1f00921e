import PhpTokens.Proofs.SourceText
import PhpTokens.Proofs.Scan.Reading
import PhpTokens.Proofs.Scan.Run

/-! Longest match. Every kind of token has a language, described without the scanner: the languages
have no text in common, and what the scanner takes is the longest front of the unread text that
belongs to any of them. A text of a language that stands alone is read as a whole; so a longer match
would be read alone as two pieces, the shorter one and the longer one, and they are the same. -/

namespace PhpTokens

/-- The one text of an operator or a punctuation mark. -/
def Symbol.lexeme : Symbol → String
  | .openTag => "<?php"
  | .doubleColon => "::"
  | .arrow => "->"
  | .minusAssign => "-="
  | .decrement => "--"
  | .minusLess => "-<"
  | .minusColon => "-:"
  | .logicalAnd => "&&"
  | .logicalOr => "||"
  | .plusAssign => "+="
  | .equal => "=="
  | .identical => "==="
  | .notEqual => "!="
  | .openBrace => "\x7b"
  | .closeBrace => "\x7d"
  | .openParen => "("
  | .closeParen => ")"
  | .semicolon => ";"
  | .backslash => "\\"
  | .comma => ","
  | .dot => "."
  | .colon => ":"
  | .minus => "-"
  | .plus => "+"
  | .ampersand => "&"
  | .pipe => "|"
  | .assign => "="
  | .bang => "!"

/-- The symbols are looked up by these texts. -/
theorem Symbol.toList_lexeme (s : Symbol) : s.lexeme.toList = s.spelling := by
  cases s <;> rfl

/-- The texts of a kind of token when words are looked up as a whole. -/
def Kind.Spells : Kind → List Char → Prop
  | .keyword k, w => k.spelledBy w = true
  | .identifier, w => IsWord w ∧ ∀ k : Keyword, k.spelledBy w = false
  | .variableName, w => ∃ name, w = '$' :: name ∧ ∀ c ∈ name, CharClass.isWordPart c = true
  | .number, w => ∃ c more, w = c :: more ∧ CharClass.isLetter c = false ∧
      ∀ d ∈ w, CharClass.isNumeral d = true
  | .stringLiteral, w => ∃ body, w = '"' :: (body ++ ['"']) ∧ '"' ∉ body
  | .comment, w => ∃ body, w = '#' :: body ∧ '\n' ∉ body
  | .symbol s, w => w = s.lexeme.toList
  | .endOfInput, _ => False

/-- The texts of a kind at the front of an unread text. Under the lenient rule a string literal need
not be closed if it takes all that is unread. -/
def Kind.Matches (rule : OpenEndRule) (unread : List Char) (kind : Kind) (w : List Char) : Prop :=
  kind.Spells w ∨
    (rule = .lenient ∧ w = unread ∧ kind = .stringLiteral ∧ ∃ body, w = '"' :: body ∧ '"' ∉ body)

namespace Lexeme

/-- What is read matches its kind. -/
theorem Reads.kind_matches {rules : Rules} {w after : List Char} {piece : Lexeme}
    (h : Reads rules w after.head? piece) (hrule : rules.keywords = .wholeWord) :
    piece.kind.Matches rules.unterminated (w ++ after) w := by
  generalize hnext : after.head? = next at h
  cases h with
  | keyword spelled _ => exact .inl spelled
  | identifier word spared _ =>
    rw [hrule] at spared
    exact .inl ⟨word, spared⟩
  | variableName parts _ => exact .inl ⟨_, rfl, parts⟩
  | number plain numerals _ => exact .inl ⟨_, _, rfl, plain, numerals⟩
  | string inner => exact .inl ⟨_, rfl, inner⟩
  | openString lenient inner =>
    rw [List.head?_eq_none_iff.mp hnext, List.append_nil]
    exact .inr ⟨lenient, rfl, rfl, _, rfl, inner⟩
  | comment inner | openComment _ inner => exact .inl ⟨_, rfl, inner⟩
  | symbol _ => exact .inl (Symbol.toList_lexeme _).symm

/-- The rules under which every text of a language is read as a whole when it stands alone. -/
def aloneRules : Rules := { keywords := .wholeWord, unterminated := .lenient }

theorem stops_none (p : Char → Bool) : Stops p none := by
  intro c hc
  cases hc

/-- What matches a kind is read as that kind when it stands alone. -/
theorem exists_reads_of_matches {rule : OpenEndRule} {unread w : List Char} {kind : Kind}
    (h : kind.Matches rule unread w) :
    ∃ piece, piece.kind = kind ∧ Reads aloneRules w none piece := by
  rcases h with hspells | ⟨_, _, rfl, body, rfl, hbody⟩
  · cases kind with
    | keyword k => exact ⟨_, rfl, .keyword hspells fun _ => stops_none _⟩
    | identifier =>
      obtain ⟨hword, hspared⟩ := hspells
      exact ⟨_, rfl, .identifier hword hspared (stops_none _)⟩
    | variableName =>
      obtain ⟨name, rfl, hparts⟩ := hspells
      exact ⟨_, rfl, .variableName hparts (stops_none _)⟩
    | number =>
      obtain ⟨c, more, rfl, hplain, hnumerals⟩ := hspells
      exact ⟨_, rfl, .number hplain hnumerals (stops_none _)⟩
    | stringLiteral =>
      obtain ⟨body, rfl, hbody⟩ := hspells
      exact ⟨_, rfl, .string hbody⟩
    | comment =>
      obtain ⟨body, rfl, hbody⟩ := hspells
      exact ⟨_, rfl, .openComment rfl hbody⟩
    | symbol s =>
      rw [Kind.Spells, Symbol.toList_lexeme] at hspells
      subst hspells
      exact ⟨_, rfl, .symbol fun t c hc => by cases hc⟩
    | endOfInput => exact hspells.elim
  · exact ⟨_, rfl, .openString rfl hbody⟩

/-- No text matches two kinds. -/
theorem kind_unique {rule : OpenEndRule} {unread w : List Char} {kind kind' : Kind}
    (h : kind.Matches rule unread w) (h' : kind'.Matches rule unread w) : kind = kind' := by
  obtain ⟨piece, rfl, hreads⟩ := exists_reads_of_matches h
  obtain ⟨piece', rfl, hreads'⟩ := exists_reads_of_matches h'
  have hnone : ([] : List Char).head? = none := rfl
  rw [← hnone] at hreads hreads'
  rw [hreads.unique hreads']

/-- No longer front of the text matches any kind. -/
theorem Reads.length_le {rules : Rules} {w after : List Char} {piece : Lexeme}
    (h : Reads rules w after.head? piece) (hrule : rules.keywords = .wholeWord)
    {kind : Kind} {v : List Char} (hv : v <+: w ++ after)
    (hmatches : kind.Matches rules.unterminated (w ++ after) v) : v.length ≤ w.length := by
  apply Nat.le_of_not_lt
  intro hlt
  obtain ⟨piece', _, hreads'⟩ := exists_reads_of_matches hmatches
  obtain ⟨c, rest, hw⟩ := List.exists_cons_of_ne_nil h.ne_nil
  obtain ⟨more, rfl⟩ := List.prefix_of_prefix_length_le (List.prefix_append w after) hv
    (Nat.le_of_lt hlt)
  -- the character behind `w` is the same in `v` and in the text
  cases more with
  | nil => simp at hlt
  | cons d more =>
    rw [List.prefix_append_right_inj] at hv
    obtain ⟨tail, rfl⟩ := hv
    have halone : Reads aloneRules w (d :: more).head? piece :=
      h.of_rules hrule.symm (h.isClosed (.inr (by simp)))
    have hwhole : Reads aloneRules (w ++ d :: more) ([] : List Char).head? piece' := hreads'
    have hshort := halone.read (by rw [hw, List.cons_append])
    have hlong := hwhole.read (by rw [hw, List.append_nil, List.cons_append])
    have hsame := Except.ok.inj (hshort.symm.trans hlong)
    rw [← h.length_eq, hsame, hreads'.length_eq] at hlt
    exact Nat.lt_irrefl _ hlt

end Lexeme

/-- Maximal munch. When words are looked up as a whole, the text of every token matches the kind of
the token, and no other kind, and nothing longer at the place where it begins matches any kind. -/
theorem emitted_longest (rules : Rules) (text : String) (t : Token)
    (ht : t ∈ emitted { rules with keywords := .wholeWord } text) (hkind : t.kind ≠ .endOfInput) :
    ∃ unread, SourceText.dropBytes? t.extent.start text.toList = some unread ∧
      t.text.toList <+: unread ∧
      t.kind.Matches rules.unterminated unread t.text.toList ∧
      (∀ kind : Kind, kind.Matches rules.unterminated unread t.text.toList → kind = t.kind) ∧
      ∀ (kind : Kind) (w : List Char), w <+: unread →
        kind.Matches rules.unterminated unread w → w.length ≤ t.text.toList.length := by
  obtain ⟨cuts, ending, hcut⟩ :=
    exists_cutting { rules with keywords := .wholeWord } (Nat.zero_le text.toList.length)
  obtain ⟨c, hc, rfl⟩ := exists_cut_of_emitted hcut ht hkind
  obtain ⟨_, hlt, hle⟩ := hcut.inner c hc
  obtain ⟨after, hdrop, hreads, _⟩ := hcut.exists_reads hc
  have hchars : (c.token { rules with keywords := .wholeWord } text.toList).text.toList =
      c.chars text.toList := String.toList_ofList
  have hmatches := hreads.kind_matches rfl
  refine ⟨c.chars text.toList ++ after, SourceText.dropBytes?_eq_some_iff.mpr
    ⟨c.start, Nat.le_of_lt (Nat.lt_of_lt_of_le hlt hle), rfl, hdrop⟩, ?_⟩
  rw [hchars]
  exact ⟨List.prefix_append _ _, hmatches,
    fun kind hkind' => Lexeme.kind_unique hkind' hmatches,
    fun kind w hw hkind' => hreads.length_le rfl hw hkind'⟩

/-- A literal that the end of the text closes, behind symbols that could have been longer. -/
theorem emitted_longest_open_literal :
    let rules : Rules := { unterminated := .lenient }
    let t : Token := ⟨.stringLiteral, "\"é#", ⟨1, 6, 3⟩, ⟨5, 9⟩⟩
    t ∈ emitted { rules with keywords := .wholeWord } "a====\"é#" ∧ t.kind ≠ .endOfInput ∧
      ∃ unread, SourceText.dropBytes? t.extent.start "a====\"é#".toList = some unread ∧
        t.text.toList <+: unread ∧
        t.kind.Matches rules.unterminated unread t.text.toList ∧
        (∀ kind : Kind, kind.Matches rules.unterminated unread t.text.toList → kind = t.kind) ∧
        ∀ (kind : Kind) (w : List Char), w <+: unread →
          kind.Matches rules.unterminated unread w → w.length ≤ t.text.toList.length := by
  intro rules t
  have ht : t ∈ emitted { rules with keywords := .wholeWord } "a====\"é#" := by decide +kernel
  have hkind : t.kind ≠ .endOfInput := by decide
  exact ⟨ht, hkind, emitted_longest rules _ t ht hkind⟩

end PhpTokens
