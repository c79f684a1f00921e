import PhpTokens.Rules.Basic
import PhpTokens.Text.CharClass
import PhpTokens.Text.Utf8
import PhpTokens.Token.Basic

/-!
The piece of text that a token is made from. What a piece is and how far it reaches is decided
by the unread text alone, from its first character on, and not by its place in the source: the
first character selects a way of reading, and that takes the longest piece it can.
-/
namespace PhpTokens

/-- Why no piece can be taken. -/
inductive Fault where
  /-- No token begins with this character. -/
  | strayCharacter (c : Char)
  /-- A string literal is not closed before the text ends. -/
  | openString
  /-- A comment is not closed by a line break before the text ends. -/
  | openComment
  deriving DecidableEq, Repr

/-- The number of characters that have been passed when the fault is found. -/
def Fault.passed : Fault → Nat
  | .openString => 1
  | _ => 0

/-- A kind of token and a number of characters at the front of the unread text. -/
structure Lexeme where
  kind : Kind
  length : Nat
  /-- False for a literal or comment that the end of the text closes. -/
  isClosed : Bool := true
  deriving DecidableEq, Repr

namespace Lexeme

/-- The number of characters at the front of a text that may continue a word. -/
def wordLength (text : List Char) : Nat := (text.takeWhile CharClass.isWordPart).length

/-- A word: the whole of it looked up, or the keyword that it begins with. -/
def ofWord (rule : KeywordRule) (text : List Char) : Lexeme :=
  match rule with
  | .wholeWord =>
    let length := wordLength text
    match Keyword.ofWord? (text.take length) with
    | some word => { kind := .keyword word, length }
    | none => { kind := .identifier, length }
  | .leading =>
    match Keyword.leading? text with
    | some word => { kind := .keyword word, length := word.spelling.length }
    | none => { kind := .identifier, length := wordLength text }

/-- The UTF-8 form of the quote, which no other character's form contains. -/
def quoteByte : UInt8 := 0x22

/-- The UTF-8 form of the line feed, which no other character's form contains. -/
def lineFeedByte : UInt8 := 0x0a

/-- A string literal, from the text behind its opening quote: up to the next quote. -/
def ofString (rule : OpenEndRule) (text : List Char) : Except Fault Lexeme :=
  match Utf8.indexOf? quoteByte text with
  | some index =>
    .ok { kind := .stringLiteral, length := 1 + (Utf8.charsIn? (index + 1) text).getD 0 }
  | none =>
    match rule with
    | .strict => .error .openString
    | .lenient => .ok { kind := .stringLiteral, length := 1 + text.length, isClosed := false }

/-- A comment, from the text behind its mark: up to and without the next line feed. -/
def ofComment (rule : OpenEndRule) (text : List Char) : Except Fault Lexeme :=
  match Utf8.indexOf? lineFeedByte text with
  | some index => .ok { kind := .comment, length := 1 + (Utf8.charsIn? index text).getD 0 }
  | none =>
    match rule with
    | .strict => .error .openComment
    | .lenient => .ok { kind := .comment, length := 1 + text.length, isClosed := false }

/-- The piece at the front of a text that begins with `c`, which is not blank. -/
def read (rules : Rules) (c : Char) (rest : List Char) : Except Fault Lexeme :=
  if CharClass.isLetter c then .ok (ofWord rules.keywords (c :: rest))
  else if c = '$' then .ok { kind := .variableName, length := 1 + wordLength rest }
  else if CharClass.isNumeral c then
    .ok { kind := .number, length := ((c :: rest).takeWhile CharClass.isNumeral).length }
  else if CharClass.isQuoteMark c then ofString rules.unterminated rest
  else if CharClass.isCommentMark c then ofComment rules.unterminated rest
  else
    match Symbol.leading? (c :: rest) with
    | some symbol => .ok { kind := .symbol symbol, length := symbol.spelling.length }
    | none => .error (.strayCharacter c)

theorem wordLength_pos {c : Char} (h : CharClass.isWordPart c = true) (rest : List Char) :
    0 < wordLength (c :: rest) := by
  simp [wordLength, h]

theorem ofWord_pos {c : Char} (h : CharClass.isLetter c = true) (rule : KeywordRule)
    (rest : List Char) : 0 < (ofWord rule (c :: rest)).length := by
  have hpart : CharClass.isWordPart c = true := by simp [CharClass.isWordPart, h]
  cases rule with
  | wholeWord =>
    simp only [ofWord]
    split <;> exact wordLength_pos hpart rest
  | leading =>
    simp only [ofWord]
    split
    · rename_i word _
      cases word <;> simp [Keyword.spelling]
    · exact wordLength_pos hpart rest

theorem ofString_pos {rule : OpenEndRule} {text : List Char} {piece : Lexeme}
    (h : ofString rule text = .ok piece) : 0 < piece.length := by
  unfold ofString at h
  split at h
  · cases h; exact Nat.lt_add_right _ Nat.zero_lt_one
  · split at h
    · cases h
    · cases h; exact Nat.lt_add_right _ Nat.zero_lt_one

theorem ofComment_pos {rule : OpenEndRule} {text : List Char} {piece : Lexeme}
    (h : ofComment rule text = .ok piece) : 0 < piece.length := by
  unfold ofComment at h
  split at h
  · cases h; exact Nat.lt_add_right _ Nat.zero_lt_one
  · split at h
    · cases h
    · cases h; exact Nat.lt_add_right _ Nat.zero_lt_one

/-- Every piece takes at least one character. -/
theorem read_pos {rules : Rules} {c : Char} {rest : List Char} {piece : Lexeme}
    (h : read rules c rest = .ok piece) : 0 < piece.length := by
  unfold read at h
  split at h
  · rename_i hletter
    cases h; exact ofWord_pos hletter _ _
  · split at h
    · cases h; exact Nat.lt_add_right _ Nat.zero_lt_one
    · split at h
      · rename_i hdigit
        cases h; simp [hdigit]
      · split at h
        · exact ofString_pos h
        · split at h
          · exact ofComment_pos h
          · split at h
            · rename_i symbol _
              cases h; cases symbol <;> simp [Symbol.spelling]
            · cases h

end Lexeme
end PhpTokens
