import Mathlib.Data.List.TakeWhile
import PhpTokens.Scan.Lexeme
import PhpTokens.Proofs.Text.Utf8
import PhpTokens.Proofs.Token.Keyword
import PhpTokens.Proofs.Token.Symbol

/-! How far a piece reaches. The first character selects a way of reading for all rules and all
texts at once, and the searches for a closing byte are put into terms of characters. A piece never
reaches beyond the text. -/

namespace PhpTokens

theorem drop_length_takeWhile (p : Char → Bool) (text : List Char) :
    text.drop (text.takeWhile p).length = text.dropWhile p := by
  induction text with
  | nil => rfl
  | cons c text ih => by_cases h : p c = true <;> simp [h, ih]

/-- A text with a `c` in it, divided before and behind the first one. -/
theorem takeWhile_of_mem {c : Char} {text : List Char} (h : c ∈ text) :
    ∃ rest, text = text.takeWhile (· != c) ++ c :: rest := by
  obtain ⟨front, rest, htext, hfront⟩ := List.eq_append_cons_of_mem h
  refine ⟨rest, ?_⟩
  have htake : text.takeWhile (· != c) = front := by
    rw [htext, List.takeWhile_append_of_pos]
    · simp
    · intro d hd
      exact bne_iff_ne.mpr fun he => hfront (he ▸ hd)
  rw [htake]
  exact htext

namespace Utf8

theorem size_takeWhile (p : Char → Bool) (cs : List Char) :
    size (cs.takeWhile p) = size (cs.take (cs.takeWhile p).length) :=
  congrArg size (List.prefix_iff_eq_take.mp (List.takeWhile_prefix p))

/-- The bytes up to a mark and the one of the mark itself. -/
theorem size_takeWhile_add_one {mark : Char} {cs : List Char} (hmark : mark.utf8Size = 1)
    (hmem : mark ∈ cs) :
    size (cs.takeWhile (· != mark)) + 1 =
      size (cs.take ((cs.takeWhile (· != mark)).length + 1)) := by
  obtain ⟨rest, hcs⟩ := takeWhile_of_mem hmem
  have htake : (cs.takeWhile (· != mark) ++ mark :: rest).take
      ((cs.takeWhile (· != mark)).length + 1) =
        cs.takeWhile (· != mark) ++ (mark :: rest).take 1 := List.take_length_add_append 1
  rw [← hcs, List.take_succ_cons, List.take_zero] at htake
  rw [htake, size_append, size_cons, hmark, size_nil]

end Utf8

/-- The character that a fault is about. -/
def Fault.mark : Fault → Char
  | .strayCharacter c => c
  | .openString => '"'
  | .openComment => '#'

namespace Lexeme

theorem wordLength_le (text : List Char) : wordLength text ≤ text.length :=
  (List.takeWhile_prefix _).length_le

theorem wordLength_cons {c : Char} (h : CharClass.isWordPart c = true) (rest : List Char) :
    wordLength (c :: rest) = wordLength rest + 1 := by
  simp [wordLength, h]

theorem exists_of_wordLength_pos {text : List Char} (h : 0 < wordLength text) :
    ∃ c rest, text = c :: rest ∧ CharClass.isWordPart c = true := by
  cases text with
  | nil => cases h
  | cons c rest =>
    refine ⟨c, rest, rfl, ?_⟩
    cases hpart : CharClass.isWordPart c with
    | true => rfl
    | false => simp [wordLength, hpart] at h

/-- A word that is entered at a character inside it ends where it would have ended. -/
theorem wordLength_drop {m : Nat} {text : List Char} (h : m ≤ wordLength text) :
    wordLength (text.drop m) = wordLength text - m := by
  induction m generalizing text with
  | zero => rfl
  | succ m ih =>
    cases text with
    | nil => simp [wordLength] at h
    | cons c rest =>
      by_cases hc : CharClass.isWordPart c = true
      · rw [wordLength_cons hc] at h ⊢
        rw [List.drop_succ_cons, ih (by omega)]
        omega
      · simp [wordLength, hc] at h

theorem numeralLength_le (text : List Char) :
    (text.takeWhile CharClass.isNumeral).length ≤ wordLength text := by
  induction text with
  | nil => exact Nat.le_refl _
  | cons c rest ih =>
    by_cases hc : CharClass.isNumeral c = true
    · rw [wordLength_cons (CharClass.isWordPart_of_isNumeral hc), List.takeWhile_cons_of_pos hc]
      exact Nat.succ_le_succ ih
    · simp [hc]

theorem length_le_of_begins {k : Keyword} {text : List Char} (h : k.Begins text) :
    k.spelling.length ≤ wordLength text :=
  Keyword.length_of_begins (Keyword.begins_takeWhile_iff.mpr h)

theorem take_wordLength (text : List Char) :
    text.take (wordLength text) = text.takeWhile CharClass.isWordPart :=
  (List.prefix_iff_eq_take.mp (List.takeWhile_prefix _)).symm

theorem ofWord_length_le (rule : KeywordRule) (text : List Char) :
    (ofWord rule text).length ≤ wordLength text := by
  cases rule with
  | wholeWord =>
    simp only [ofWord]
    split <;> exact Nat.le_refl _
  | leading =>
    simp only [ofWord]
    split
    · next k hk => exact length_le_of_begins (Keyword.leading?_eq_some_iff.mp hk)
    · exact Nat.le_refl _

theorem ofWord_le (rule : KeywordRule) (text : List Char) :
    (ofWord rule text).length ≤ text.length :=
  Nat.le_trans (ofWord_length_le rule text) (wordLength_le text)

theorem indexOf?_quoteByte (text : List Char) :
    Utf8.indexOf? quoteByte text =
      if '"' ∈ text then some (Utf8.size (text.takeWhile (· != '"'))) else none :=
  Utf8.indexOf?_ascii (show '"'.toNat < 128 by decide) text

theorem indexOf?_lineFeedByte (text : List Char) :
    Utf8.indexOf? lineFeedByte text =
      if '\n' ∈ text then some (Utf8.size (text.takeWhile (· != '\n'))) else none :=
  Utf8.indexOf?_ascii (show '\n'.toNat < 128 by decide) text

/-- A piece behind whose first character the text is searched for a mark. A piece that the mark
closes has `around` characters besides those in front of the mark. -/
def enclosed (mark : Char) (kind : Kind) (fault : Fault) (around : Nat) (rule : OpenEndRule)
    (text : List Char) : Except Fault Lexeme :=
  if mark ∈ text then .ok { kind, length := (text.takeWhile (· != mark)).length + around }
  else
    match rule with
    | .strict => .error fault
    | .lenient => .ok { kind, length := 1 + text.length, isClosed := false }

/-- A literal ends with the first quote behind the opening one. -/
theorem ofString_eq_enclosed (rule : OpenEndRule) (text : List Char) :
    ofString rule text = enclosed '"' .stringLiteral .openString 2 rule text := by
  by_cases h : '"' ∈ text
  · obtain ⟨rest, htext⟩ := takeWhile_of_mem h
    have hchars : Utf8.charsIn? (Utf8.size (text.takeWhile (· != '"')) + 1) text =
        some ((text.takeWhile (· != '"')).length + 1) := by
      have hsize := Utf8.charsIn?_size (text.takeWhile (· != '"') ++ ['"']) rest
      rw [List.append_assoc, List.singleton_append, ← htext] at hsize
      simpa [show '"'.utf8Size = 1 from rfl] using hsize
    simp only [ofString, enclosed, indexOf?_quoteByte, if_pos h, hchars, Option.getD_some]
    congr 2
    omega
  · cases rule <;> simp only [ofString, enclosed, indexOf?_quoteByte, if_neg h]

/-- A comment ends in front of the first line break. -/
theorem ofComment_eq_enclosed (rule : OpenEndRule) (text : List Char) :
    ofComment rule text = enclosed '\n' .comment .openComment 1 rule text := by
  by_cases h : '\n' ∈ text
  · obtain ⟨rest, htext⟩ := takeWhile_of_mem h
    have hchars : Utf8.charsIn? (Utf8.size (text.takeWhile (· != '\n'))) text =
        some (text.takeWhile (· != '\n')).length := by
      have hsize := Utf8.charsIn?_size (text.takeWhile (· != '\n')) ('\n' :: rest)
      rwa [← htext] at hsize
    simp only [ofComment, enclosed, indexOf?_lineFeedByte, if_pos h, hchars, Option.getD_some]
    congr 2
    omega
  · cases rule <;> simp only [ofComment, enclosed, indexOf?_lineFeedByte, if_neg h]

section Enclosed

variable {mark : Char} {kind : Kind} {fault : Fault} {around : Nat} {rule : OpenEndRule}
  {text : List Char}

theorem enclosed_kind {piece : Lexeme}
    (h : enclosed mark kind fault around rule text = .ok piece) : piece.kind = kind := by
  unfold enclosed at h
  split at h
  · cases h
    rfl
  · cases rule <;> cases h
    rfl

/-- What is enclosed is at fault only if the mark is missing and has to be there. -/
theorem enclosed_eq_error_iff {fault' : Fault} :
    enclosed mark kind fault around rule text = .error fault' ↔
      fault' = fault ∧ rule = .strict ∧ mark ∉ text := by
  unfold enclosed
  split
  · next hmem => simp [hmem]
  · next hmem => cases rule <;> simp [hmem, eq_comm]

theorem enclosed_le {piece : Lexeme} (h : enclosed mark kind fault around rule text = .ok piece)
    (haround : around ≤ 2) : piece.length ≤ text.length + 1 := by
  unfold enclosed at h
  split at h
  · next hmem =>
    obtain ⟨rest, htext⟩ := takeWhile_of_mem hmem
    have hlength := congrArg List.length htext
    rw [List.length_append, List.length_cons] at hlength
    cases h
    dsimp only
    omega
  · cases rule with
    | strict => cases h
    | lenient =>
      cases h
      exact Nat.le_of_eq (Nat.add_comm _ _)

end Enclosed

/-- The way of reading that the first character of a piece selects. -/
inductive Front (c : Char) : Prop where
  | word (letter : CharClass.isLetter c = true)
      (reads : ∀ rules rest, read rules c rest = .ok (ofWord rules.keywords (c :: rest)))
  | variableName (mark : c = '$')
      (reads : ∀ rules rest,
        read rules c rest = .ok { kind := .variableName, length := 1 + wordLength rest })
  | number (plain : CharClass.isLetter c = false) (numeral : CharClass.isNumeral c = true)
      (reads : ∀ rules rest, read rules c rest =
        .ok { kind := .number, length := ((c :: rest).takeWhile CharClass.isNumeral).length })
  | string (mark : c = '"')
      (reads : ∀ rules rest, read rules c rest =
        enclosed '"' .stringLiteral .openString 2 rules.unterminated rest)
  | comment (mark : c = '#')
      (reads : ∀ rules rest, read rules c rest =
        enclosed '\n' .comment .openComment 1 rules.unterminated rest)
  | symbol (plain : CharClass.isWordPart c = true → c = '_')
      (reads : ∀ rules rest, read rules c rest =
        match Symbol.leading? (c :: rest) with
        | some s => .ok { kind := .symbol s, length := s.spelling.length }
        | none => .error (.strayCharacter c))

theorem front (c : Char) : Front c := by
  by_cases hletter : CharClass.isLetter c = true
  · exact .word hletter fun rules rest => by rw [read, if_pos hletter]
  by_cases hdollar : c = '$'
  · exact .variableName hdollar fun rules rest => by rw [read, if_neg hletter, if_pos hdollar]
  by_cases hnumeral : CharClass.isNumeral c = true
  · exact .number (by simpa using hletter) hnumeral fun rules rest => by
      rw [read, if_neg hletter, if_neg hdollar, if_pos hnumeral]
  by_cases hquote : CharClass.isQuoteMark c = true
  · exact .string (eq_of_beq hquote) fun rules rest => by
      rw [read, if_neg hletter, if_neg hdollar, if_neg hnumeral, if_pos hquote,
        ofString_eq_enclosed]
  by_cases hmark : CharClass.isCommentMark c = true
  · exact .comment (eq_of_beq hmark) fun rules rest => by
      rw [read, if_neg hletter, if_neg hdollar, if_neg hnumeral, if_neg hquote, if_pos hmark,
        ofComment_eq_enclosed]
  refine .symbol ?_ fun rules rest => ?_
  · intro hpart
    simpa [CharClass.isWordPart, hletter, hnumeral] using hpart
  · cases hsymbol : Symbol.leading? (c :: rest) <;>
      simp only [read, if_neg hletter, if_neg hdollar, if_neg hnumeral, if_neg hquote,
        if_neg hmark, hsymbol]

theorem read_letter {c : Char} (h : CharClass.isLetter c = true) (rules : Rules)
    (rest : List Char) : read rules c rest = .ok (ofWord rules.keywords (c :: rest)) := by
  rw [read, if_pos h]

/-- No piece reaches beyond the text. -/
theorem read_le {rules : Rules} {c : Char} {rest : List Char} {piece : Lexeme}
    (h : read rules c rest = .ok piece) : piece.length ≤ rest.length + 1 := by
  cases front c with
  | word _ reads =>
    rw [reads] at h
    cases h
    exact ofWord_le _ _
  | variableName _ reads =>
    rw [reads] at h
    cases h
    have hle := wordLength_le rest
    dsimp only
    omega
  | number _ _ reads =>
    rw [reads] at h
    cases h
    exact (List.takeWhile_prefix _).length_le
  | string _ reads | comment _ reads => exact enclosed_le (reads rules rest ▸ h) (by decide)
  | symbol _ reads =>
    rw [reads] at h
    split at h
    · next s hs =>
      cases h
      exact (Symbol.prefix_of_leading? hs).length_le
    · cases h

/-- A fault is about the first character of its piece. -/
theorem mark_of_read {rules : Rules} {c : Char} {rest : List Char} {fault : Fault}
    (h : read rules c rest = .error fault) : fault.mark = c := by
  cases front c with
  | word _ reads | variableName _ reads | number _ _ reads =>
    rw [reads] at h
    cases h
  | string mark reads | comment mark reads =>
    obtain ⟨hfault, _⟩ := enclosed_eq_error_iff.mp (reads rules rest ▸ h)
    rw [hfault, mark]
    rfl
  | symbol _ reads =>
    rw [reads] at h
    split at h <;> cases h
    rfl

/-- No piece is the end of the text. -/
theorem kind_ne_endOfInput {rules : Rules} {c : Char} {rest : List Char} {piece : Lexeme}
    (h : read rules c rest = .ok piece) : piece.kind ≠ .endOfInput := by
  cases front c with
  | word _ reads =>
    rw [reads] at h
    cases h
    cases rules.keywords <;> simp only [ofWord] <;> split <;> simp
  | variableName _ reads | number _ _ reads =>
    rw [reads] at h
    cases h
    simp
  | string _ reads | comment _ reads => simp [enclosed_kind (reads rules rest ▸ h)]
  | symbol _ reads =>
    rw [reads] at h
    split at h <;> cases h
    simp

end Lexeme
end PhpTokens
