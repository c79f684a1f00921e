import PhpTokens.Proofs.Guarded.ByteReader
import PhpTokens.Proofs.Scan.Probing

/-! Reading one piece with a reader that checks everything. Searches for a closing byte answer in
bytes, names and numbers are counted in characters, and keywords and symbols are compared with
parts of the text. The piece found is the one at the front of the unread text, and the reader
behind it stands as many characters further. -/

namespace PhpTokens

open Guarded (add part maxSize)

/-- What stands at a reader: the end of the text, a piece that has been passed, or a fault, and the
reader behind it. -/
inductive Reading where
  | nothing
  | piece (kind : Kind) (length : Nat) (after : ByteReader)
  | fault (fault : Fault) (after : ByteReader)

namespace ByteReader

/-- A word: the whole of it cut out and looked up, or the keyword that is found ahead. -/
def readWord (rule : KeywordRule) (k : ByteReader) : Except Trap Reading := do
  match rule with
  | .wholeWord =>
    let (length, after) ← k.passWhile CharClass.isWordPart
    let word ← part ⟨k.offset, after.offset⟩ k.text
    match Keyword.ofWord? word with
    | some word => return .piece (.keyword word) length after
    | none => return .piece .identifier length after
  | .leading =>
    match ← k.findAhead? (·.spelling.length) Keyword.spelledBy Keyword.all with
    | some word =>
      let (length, after) ← k.move word.spelling.length
      return .piece (.keyword word) length after
    | none =>
      let (length, after) ← k.passWhile CharClass.isWordPart
      return .piece .identifier length after

/-- A string literal: the opening quote, and the bytes up to and with the next one. -/
def readString (rule : OpenEndRule) (k : ByteReader) : Except Trap Reading := do
  let (opening, inner) ← k.move 1
  match Utf8.indexOf? Lexeme.quoteByte (← inner.rest) with
  | some close =>
    let (length, after) ← inner.moveBytes (← add close 1)
    return .piece .stringLiteral (← add opening length) after
  | none =>
    match rule with
    | .strict => return .fault .openString inner
    | .lenient =>
      let (length, after) ← inner.moveToEnd
      return .piece .stringLiteral (← add opening length) after

/-- A comment: the bytes from its mark up to the next line feed. -/
def readComment (rule : OpenEndRule) (k : ByteReader) : Except Trap Reading := do
  match Utf8.indexOf? Lexeme.lineFeedByte (← k.rest) with
  | some close =>
    let (length, after) ← k.moveBytes close
    return .piece .comment length after
  | none =>
    match rule with
    | .strict => return .fault .openComment k
    | .lenient =>
      let (length, after) ← k.moveToEnd
      return .piece .comment length after

def read (rules : Rules) (k : ByteReader) : Except Trap Reading := do
  match ← k.here? with
  | none => return .nothing
  | some c =>
    if CharClass.isLetter c then k.readWord rules.keywords
    else if c = '$' then
      let (mark, name) ← k.move 1
      let (length, after) ← name.passWhile CharClass.isWordPart
      return .piece .variableName (← add mark length) after
    else if CharClass.isNumeral c then
      let (length, after) ← k.passWhile CharClass.isNumeral
      return .piece .number length after
    else if CharClass.isQuoteMark c then k.readString rules.unterminated
    else if CharClass.isCommentMark c then k.readComment rules.unterminated
    else
      match ← k.findAhead? (·.spelling.length) (·.spelling == ·) Symbol.all with
      | some symbol =>
        let (length, after) ← k.move symbol.spelling.length
        return .piece (.symbol symbol) length after
      | none => return .fault (.strayCharacter c) k

end ByteReader

/-- The reading that finds a piece, or a fault, behind the first `n` characters of a text. -/
def Reading.behind (rule : NewlineRule) (text : List Char) (n : Nat) :
    Except Fault Lexeme → Reading
  | .ok found => .piece found.kind found.length (ByteReader.behind rule text (n + found.length))
  | .error found => .fault found (ByteReader.behind rule text (n + found.passed))

namespace ByteReader

section Sized

variable {text : List Char} {n m : Nat}

/-- The part between two readers is the text that lies between them. -/
theorem part_behind (rule : NewlineRule) (h : n + m ≤ text.length) :
    part ⟨(behind rule text n).offset, (behind rule text (n + m)).offset⟩
      (behind rule text n).text = .ok ((text.drop n).take m) := by
  have hpart : SourceText.partOf? ⟨(behind rule text n).offset, (behind rule text (n + m)).offset⟩
      text = some ((text.drop n).take m) :=
    SourceText.partOf?_eq_some_iff.mpr
      ⟨n, n + m, Nat.le_add_right n m, h, rfl, rfl, by rw [Nat.add_sub_cancel_left]⟩
  rw [part, show (behind rule text n).text = text from rfl, hpart]

theorem length_takeWhile_drop_le (p : Char → Bool) (hn : n ≤ text.length) :
    n + ((text.drop n).takeWhile p).length ≤ text.length := by
  have hle := (List.takeWhile_prefix (l := text.drop n) p).length_le
  rw [List.length_drop] at hle
  omega

theorem read_at_end (rule : NewlineRule) (rules : Rules) :
    (behind rule text text.length).read rules = .ok .nothing := by
  rw [read, here?_behind rule (Nat.le_refl _), List.drop_length]
  rfl

variable (hsize : Utf8.size text ≤ maxSize) (rule : NewlineRule)
include hsize

theorem readWord_behind (words : KeywordRule) (hn : n ≤ text.length) :
    (behind rule text n).readWord words =
      .ok (.behind rule text n (.ok (Lexeme.ofWord words (text.drop n)))) := by
  have hpass : (behind rule text n).passWhile CharClass.isWordPart =
      .ok (Lexeme.wordLength (text.drop n),
        behind rule text (n + Lexeme.wordLength (text.drop n))) :=
    passWhile_behind hsize rule CharClass.isWordPart hn
  cases words with
  | wholeWord =>
    have hword := part_behind rule (length_takeWhile_drop_le CharClass.isWordPart hn)
    rw [← Lexeme.wordLength] at hword
    simp only [readWord, hpass, hword, bind, Except.bind, Lexeme.ofWord]
    cases Keyword.ofWord? ((text.drop n).take (Lexeme.wordLength (text.drop n))) <;> rfl
  | leading =>
    have hfind : (behind rule text n).findAhead? (·.spelling.length) Keyword.spelledBy
        Keyword.all = .ok (Keyword.leading? (text.drop n)) := by
      simp only [findAhead?_behind rule hn, Keyword.spelledBy_ahead]
      rfl
    simp only [readWord, hfind, bind, Except.bind, Lexeme.ofWord]
    cases hword : Keyword.leading? (text.drop n) with
    | some word =>
      have hlength := Keyword.length_of_begins (Keyword.leading?_eq_some_iff.mp hword)
      rw [List.length_drop] at hlength
      simp only [move_behind hsize rule (show n + word.spelling.length ≤ text.length by omega)]
      rfl
    | none =>
      simp only [hpass]
      rfl

theorem readString_behind (ends : OpenEndRule) (hn : n < text.length) :
    (behind rule text n).readString ends =
      .ok (.behind rule text n (Lexeme.enclosed '"' .stringLiteral .openString 2 ends
        (text.drop (n + 1)))) := by
  have hlength := Utf8.length_le_size text
  have hopening := move_behind hsize rule (show n + 1 ≤ text.length from hn)
  simp only [readString, hopening, rest_behind rule (show n + 1 ≤ text.length from hn),
    Lexeme.indexOf?_quoteByte, Lexeme.enclosed, bind, Except.bind]
  by_cases hmem : '"' ∈ text.drop (n + 1)
  · simp only [if_pos hmem]
    -- the byte found is the whole of a character, so what is moved ends at an edge
    have hbytes := Utf8.size_takeWhile_add_one (show '"'.utf8Size = 1 from rfl) hmem
    obtain ⟨rest, hrest⟩ := takeWhile_of_mem hmem
    have hclose := congrArg List.length hrest
    rw [List.length_drop, List.length_append, List.length_cons] at hclose
    generalize ((text.drop (n + 1)).takeWhile (· != '"')).length = m at hbytes hclose ⊢
    generalize Utf8.size ((text.drop (n + 1)).takeWhile (· != '"')) = close at hbytes ⊢
    have hpart := Nat.le_trans (Utf8.size_take_le (m + 1) (text.drop (n + 1)))
      (Utf8.size_drop_le (n + 1) text)
    simp only [add_sized hsize (show close + 1 ≤ Utf8.size text + 2 by omega), hbytes,
      moveBytes_behind hsize rule (show n + 1 + (m + 1) ≤ text.length by omega),
      add_sized hsize (show 1 + (m + 1) ≤ Utf8.size text + 2 by omega)]
    rw [Nat.add_comm 1 (m + 1), Nat.add_assoc n 1 (m + 1), Nat.add_comm 1 (m + 1)]
    rfl
  · simp only [if_neg hmem]
    cases ends with
    | strict => rfl
    | lenient =>
      have hrest : n + (1 + (text.length - (n + 1))) = text.length := by omega
      simp only [moveToEnd_behind hsize rule (show n + 1 ≤ text.length from hn),
        add_sized hsize (show 1 + (text.length - (n + 1)) ≤ Utf8.size text + 2 by omega),
        Reading.behind, List.length_drop, hrest]
      rfl

theorem readComment_behind (ends : OpenEndRule) (hmark : text[n]? = some '#') :
    (behind rule text n).readComment ends =
      .ok (.behind rule text n (Lexeme.enclosed '\n' .comment .openComment 1 ends
        (text.drop (n + 1)))) := by
  obtain ⟨hn, hc⟩ := List.getElem?_eq_some_iff.mp hmark
  have hdrop : text.drop n = '#' :: text.drop (n + 1) := by
    rw [List.drop_eq_getElem_cons hn, hc]
  have hmem : '\n' ∈ text.drop n ↔ '\n' ∈ text.drop (n + 1) := by
    rw [hdrop, List.mem_cons]
    exact or_iff_right (by decide)
  simp only [readComment, rest_behind rule (Nat.le_of_lt hn), Lexeme.indexOf?_lineFeedByte,
    Lexeme.enclosed, bind, Except.bind, hmem]
  by_cases hbreak : '\n' ∈ text.drop (n + 1)
  · have hpart : ((text.drop n).takeWhile (· != '\n')).length =
        ((text.drop (n + 1)).takeWhile (· != '\n')).length + 1 := by
      rw [hdrop]
      rfl
    have hmove := moveBytes_behind hsize rule
      (length_takeWhile_drop_le (· != '\n') (Nat.le_of_lt hn))
    rw [← Utf8.size_takeWhile, hpart] at hmove
    simp only [if_pos hbreak, hmove]
    rfl
  · simp only [if_neg hbreak]
    cases ends with
    | strict => rfl
    | lenient =>
      have hrest : 1 + (text.length - (n + 1)) = text.length - n := by omega
      simp only [moveToEnd_behind hsize rule (Nat.le_of_lt hn), Reading.behind, List.length_drop,
        hrest, Nat.add_sub_cancel' (Nat.le_of_lt hn)]
      rfl

/-- The piece read is the one that the unread text begins with. -/
theorem read_behind (rules : Rules) {c : Char} (hc : text[n]? = some c) :
    (behind rule text n).read rules =
      .ok (.behind rule text n (Lexeme.read rules c (text.drop (n + 1)))) := by
  obtain ⟨hn, hget⟩ := List.getElem?_eq_some_iff.mp hc
  have hdrop : text.drop n = c :: text.drop (n + 1) := by
    rw [List.drop_eq_getElem_cons hn, hget]
  simp only [read, here?_behind rule (Nat.le_of_lt hn), List.head?_drop, hc, Lexeme.read, ← hdrop,
    bind, Except.bind]
  by_cases hletter : CharClass.isLetter c = true
  · simp only [if_pos hletter]
    exact readWord_behind hsize rule rules.keywords (Nat.le_of_lt hn)
  by_cases hdollar : c = '$'
  · have hmark := move_behind hsize rule (show n + 1 ≤ text.length from hn)
    have hname := passWhile_behind hsize rule CharClass.isWordPart
      (show n + 1 ≤ text.length from hn)
    have hend := length_takeWhile_drop_le CharClass.isWordPart (show n + 1 ≤ text.length from hn)
    have hlength := Utf8.length_le_size text
    rw [← Lexeme.wordLength] at hname hend
    simp only [if_neg hletter, if_pos hdollar, hmark, hname, add_sized hsize
      (show 1 + Lexeme.wordLength (text.drop (n + 1)) ≤ Utf8.size text + 2 by omega),
      Nat.add_assoc n 1]
    rfl
  by_cases hnumeral : CharClass.isNumeral c = true
  · simp only [if_neg hletter, if_neg hdollar, if_pos hnumeral,
      passWhile_behind hsize rule CharClass.isNumeral (Nat.le_of_lt hn)]
    rfl
  by_cases hquote : CharClass.isQuoteMark c = true
  · simp only [if_neg hletter, if_neg hdollar, if_neg hnumeral, if_pos hquote,
      Lexeme.ofString_eq_enclosed]
    exact readString_behind hsize rule rules.unterminated hn
  by_cases hcomment : CharClass.isCommentMark c = true
  · simp only [if_neg hletter, if_neg hdollar, if_neg hnumeral, if_neg hquote, if_pos hcomment,
      Lexeme.ofComment_eq_enclosed]
    exact readComment_behind hsize rule rules.unterminated (eq_of_beq hcomment ▸ hc)
  have hfind : (behind rule text n).findAhead? (·.spelling.length) (·.spelling == ·) Symbol.all =
      .ok (Symbol.leading? (text.drop n)) := by
    simp only [findAhead?_behind rule (Nat.le_of_lt hn), Symbol.spelling_beq_ahead]
    rfl
  simp only [if_neg hletter, if_neg hdollar, if_neg hnumeral, if_neg hquote, if_neg hcomment,
    hfind]
  cases hsymbol : Symbol.leading? (text.drop n) with
  | some symbol =>
    have hlength := (Symbol.prefix_of_leading? hsymbol).length_le
    rw [List.length_drop] at hlength
    simp only [move_behind hsize rule (show n + symbol.spelling.length ≤ text.length by omega)]
    rfl
  | none => rfl

end Sized
end ByteReader
end PhpTokens
