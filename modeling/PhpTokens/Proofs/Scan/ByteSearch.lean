import PhpTokens.Proofs.Scan.Reading
import PhpTokens.Proofs.Text.Rounds

/-! Two ways to read a literal or a comment. One searches the bytes of the text for the byte that
closes it and moves there at once; the other goes from character to character until it sees the
mark or the end of the text. They find the same, and leave the reader at the same place, whatever
function makes the search, as long as it finds the first byte. -/

namespace PhpTokens

/-- A function that finds the first place where a byte stands. -/
def FindsFirst (find? : UInt8 → List UInt8 → Option Nat) : Prop :=
  ∀ b bytes i, find? b bytes = some i ↔ bytes[i]? = some b ∧ ∀ j < i, bytes[j]? ≠ some b

theorem findsFirst_findIdx? : FindsFirst fun b bytes => bytes.findIdx? (· == b) := by
  intro b bytes i
  simp only [List.findIdx?_eq_some_iff_getElem, beq_iff_eq, List.getElem?_eq_some_iff,
    ne_eq]
  constructor
  · rintro ⟨hi, hb, hbefore⟩
    exact ⟨⟨hi, hb⟩, fun j hj ⟨_, hjb⟩ => hbefore j hj hjb⟩
  · rintro ⟨⟨hi, hb⟩, hbefore⟩
    exact ⟨hi, hb, fun j hj hjb => hbefore j hj ⟨Nat.lt_trans hj hi, hjb⟩⟩

theorem FindsFirst.eq_findIdx? {find? : UInt8 → List UInt8 → Option Nat} (h : FindsFirst find?)
    (b : UInt8) (bytes : List UInt8) : find? b bytes = bytes.findIdx? (· == b) := by
  ext i
  exact (h b bytes i).trans (findsFirst_findIdx? b bytes i).symm

namespace Utf8

/-- The UTF-8 form of a text. -/
def bytes (cs : List Char) : List UInt8 := cs.flatMap String.utf8EncodeChar

theorem indexOfFrom?_eq_findIdx? (b : UInt8) (passed : Nat) (cs : List Char) :
    indexOfFrom? b passed cs = ((bytes cs).findIdx? (· == b)).map (passed + ·) := by
  induction cs generalizing passed with
  | nil => rfl
  | cons c cs ih =>
    have hcons : bytes (c :: cs) = String.utf8EncodeChar c ++ bytes cs := List.flatMap_cons
    rw [hcons, List.findIdx?_append, indexOfFrom?, ih]
    cases (String.utf8EncodeChar c).findIdx? (· == b) with
    | some i => rfl
    | none =>
      cases (bytes cs).findIdx? (· == b) with
      | none => rfl
      | some i =>
        simp only [Option.map_some, Option.none_or, String.length_utf8EncodeChar]
        rw [Nat.add_assoc, Nat.add_comm i]

/-- The search from character to character is one in the bytes of the text. -/
theorem indexOf?_eq_findIdx? (b : UInt8) (cs : List Char) :
    indexOf? b cs = (bytes cs).findIdx? (· == b) := by
  rw [indexOf?, indexOfFrom?_eq_findIdx?]
  simp

end Utf8

/-- What reading has passed: a kind of token, a number of characters, and the reader behind them. -/
structure Passage where
  kind : Kind
  length : Nat
  after : TextReader
  deriving DecidableEq, Repr

/-- What becomes of a piece that reaches the end of the text. -/
def OpenEndRule.atEnd (rule : OpenEndRule) (fault : Fault) (passage : Passage) :
    Except Fault Passage :=
  match rule with
  | .strict => .error fault
  | .lenient => .ok passage

/-- The pieces that a mark closes. -/
inductive Enclosure where
  | string
  | comment
  deriving DecidableEq, Repr

def Enclosure.opening : Enclosure → Char
  | .string => '"'
  | .comment => '#'

namespace TextReader

/-- The passage over a piece that begins at the reader. -/
def passage (k : TextReader) (piece : Lexeme) : Passage :=
  ⟨piece.kind, piece.length, (k.move piece.length).2⟩

section Search

variable (find? : UInt8 → List UInt8 → Option Nat)

/-- A string literal: the opening quote, and the bytes up to and with the next one. -/
def searchString (rule : OpenEndRule) (k : TextReader) :
    Except WordFault (Except Fault Passage) := do
  let (opening, inner) := k.move 1
  match find? Lexeme.quoteByte (Utf8.bytes inner.unread) with
  | some close =>
    let (length, after) ← inner.moveBytes (← Word.add close 1)
    return .ok ⟨.stringLiteral, ← Word.add opening length, after⟩
  | none =>
    let (length, after) := inner.moveToEnd
    return rule.atEnd .openString ⟨.stringLiteral, ← Word.add opening length, after⟩

/-- A comment: the bytes from its mark up to the next line feed. -/
def searchComment (rule : OpenEndRule) (k : TextReader) :
    Except WordFault (Except Fault Passage) := do
  match find? Lexeme.lineFeedByte (Utf8.bytes k.unread) with
  | some close =>
    let (length, after) ← k.moveBytes close
    return .ok ⟨.comment, length, after⟩
  | none =>
    let (length, after) := k.moveToEnd
    return rule.atEnd .openComment ⟨.comment, length, after⟩

/-- Reads a piece by a search for the byte that closes it. -/
def search : Enclosure → OpenEndRule → TextReader → Except WordFault (Except Fault Passage)
  | .string => searchString find?
  | .comment => searchComment find?

end Search

/-- Reads a piece one character at a time. A string literal begins with its quote and takes in the
one that the loop has come to; a comment ends in front of the line break. -/
inductive Steps (rule : OpenEndRule) (k : TextReader) :
    Enclosure → Except Fault Passage → Prop where
  | string {inner : TextReader} {rounds passed : Nat}
      (loop : Loop (· != '"') (k.move 1).2 rounds (passed, inner)) :
      Steps rule k .string
        (if inner.here? = some '"' then
          .ok ⟨.stringLiteral, (k.move 1).1 + passed + (inner.move 1).1, (inner.move 1).2⟩
        else rule.atEnd .openString ⟨.stringLiteral, (k.move 1).1 + passed, inner⟩)
  | comment {inner : TextReader} {rounds passed : Nat}
      (loop : Loop (· != '\n') k rounds (passed, inner)) :
      Steps rule k .comment
        (if inner.here? = some '\n' then .ok ⟨.comment, passed, inner⟩
        else rule.atEnd .openComment ⟨.comment, passed, inner⟩)

/-- Steps from character to character can take only one course. -/
theorem Steps.unique {rule : OpenEndRule} {k : TextReader} {e : Enclosure}
    {result result' : Except Fault Passage} (h : Steps rule k e result)
    (h' : Steps rule k e result') : result = result' := by
  cases h with
  | string loop =>
    cases h' with
    | string loop' =>
      cases (loop.unique loop').2
      rfl
  | comment loop =>
    cases h' with
    | comment loop' =>
      cases (loop.unique loop').2
      rfl

theorem here?_passWhile_bne (mark : Char) (k : TextReader) :
    (k.passWhile (· != mark)).here? = if mark ∈ k.unread then some mark else none := by
  rw [here?, passWhile_unread]
  by_cases h : mark ∈ k.unread
  · obtain ⟨rest, hunread⟩ := takeWhile_of_mem h
    have hrest : k.unread.dropWhile (· != mark) = mark :: rest := by
      have hsplit := k.unread.takeWhile_append_dropWhile (p := (· != mark))
      exact List.append_cancel_left (hsplit.trans hunread)
    rw [if_pos h, hrest, List.head?_cons]
  · have hnone : k.unread.dropWhile (· != mark) = [] :=
      List.dropWhile_eq_nil_iff.mpr fun c hc => bne_iff_ne.mpr fun he => h (he ▸ hc)
    rw [if_neg h, hnone, List.head?_nil]

/-- The loop that has come to a mark passes it with one more movement. -/
theorem move_mark {mark : Char} {k : TextReader} (h : mark ∈ k.unread) :
    (k.passWhile (· != mark)).move 1 =
      (1, (k.move ((k.unread.takeWhile (· != mark)).length + 1)).2) := by
  have hhere := here?_passWhile_bne mark k
  rw [if_pos h] at hhere
  obtain ⟨rest, hunread⟩ := List.head?_eq_some_iff.mp hhere
  rw [move_of_le (by simp [hunread]), move_add]
  rfl

theorem passWhile_of_not_mem {mark : Char} {k : TextReader} (h : mark ∉ k.unread) :
    (k.unread.takeWhile (· != mark)).length = k.unread.length ∧
      k.passWhile (· != mark) = k.moveToEnd.2 := by
  have hall : k.unread.takeWhile (· != mark) = k.unread :=
    List.takeWhile_eq_self_iff.mpr fun c hc => bne_iff_ne.mpr fun he => h (he ▸ hc)
  rw [passWhile, moveToEnd, hall]
  exact ⟨rfl, rfl⟩

/-- A passage over a closed piece, or over one that reaches the end. -/
theorem map_enclosed (mark : Char) (kind : Kind) (fault : Fault) (around : Nat)
    (rule : OpenEndRule) (text : List Char) (k : TextReader) :
    (Lexeme.enclosed mark kind fault around rule text).map k.passage =
      if mark ∈ text then
        .ok (k.passage ⟨kind, (text.takeWhile (· != mark)).length + around, true⟩)
      else rule.atEnd fault (k.passage ⟨kind, 1 + text.length, false⟩) := by
  by_cases h : mark ∈ text
  · simp only [Lexeme.enclosed, if_pos h]
    rfl
  · simp only [Lexeme.enclosed, if_neg h]
    cases rule <;> rfl

/-- A passage is a movement over its first character and one over the others. -/
theorem passage_succ {k : TextReader} {c : Char} {rest : List Char} (h : k.unread = c :: rest)
    (kind : Kind) (n : Nat) (isClosed : Bool) :
    k.passage ⟨kind, n + 1, isClosed⟩ = ⟨kind, n + 1, ((k.pass c rest).move n).2⟩ := by
  rw [passage, move_cons h]

section Alike

variable (rules : Rules) {k : TextReader} {rest : List Char}

/-- The steps over a literal find the piece that the scanner takes. -/
theorem steps_string (h : k.unread = '"' :: rest) :
    Steps rules.unterminated k .string ((Lexeme.read rules '"' rest).map k.passage) := by
  have hinner : (k.pass '"' rest).unread = rest := rfl
  have hsteps : Steps rules.unterminated k .string _ :=
    .string (loop_passWhile (· != '"') (k.move 1).2)
  rw [move_one h, here?_passWhile_bne, hinner] at hsteps
  rw [Lexeme.read_quote, map_enclosed]
  by_cases hmem : '"' ∈ rest
  · rw [if_pos hmem, if_pos rfl, move_mark hmem, hinner, Nat.add_comm 1] at hsteps
    rw [if_pos hmem, passage_succ h]
    exact hsteps
  · obtain ⟨hlength, hend⟩ := passWhile_of_not_mem (k := k.pass '"' rest) hmem
    rw [hinner] at hlength
    rw [if_neg hmem, if_neg (by decide), hlength, hend, moveToEnd, hinner] at hsteps
    rw [if_neg hmem, Nat.add_comm, passage_succ h, Nat.add_comm]
    exact hsteps

/-- The steps over a comment find the piece that the scanner takes. -/
theorem steps_comment (h : k.unread = '#' :: rest) :
    Steps rules.unterminated k .comment ((Lexeme.read rules '#' rest).map k.passage) := by
  have hmem : '\n' ∈ k.unread ↔ '\n' ∈ rest := by
    rw [h, List.mem_cons]
    exact or_iff_right (by decide)
  have hsteps : Steps rules.unterminated k .comment _ := .comment (loop_passWhile (· != '\n') k)
  rw [here?_passWhile_bne] at hsteps
  rw [Lexeme.read_hash, map_enclosed]
  by_cases hbreak : '\n' ∈ rest
  · have hlength : (k.unread.takeWhile (· != '\n')).length =
        (rest.takeWhile (· != '\n')).length + 1 := by
      rw [h]
      rfl
    rw [if_pos (hmem.mpr hbreak), if_pos rfl, passWhile, hlength] at hsteps
    rw [if_pos hbreak]
    exact hsteps
  · obtain ⟨hlength, hend⟩ := passWhile_of_not_mem (mt hmem.mp hbreak)
    rw [if_neg (mt hmem.mp hbreak), if_neg (by decide), hlength, hend, moveToEnd, h,
      List.length_cons, Nat.add_comm] at hsteps
    rw [if_neg hbreak]
    exact hsteps

variable {find? : UInt8 → List UInt8 → Option Nat} (hfirst : FindsFirst find?)
  (hsize : k.offset + Utf8.size k.unread < Word.bound)
include hfirst hsize

/-- The search in a literal finds the piece that the scanner takes. -/
theorem searchString_eq (h : k.unread = '"' :: rest) :
    k.searchString find? rules.unterminated =
      .ok ((Lexeme.read rules '"' rest).map k.passage) := by
  have hinner : (k.pass '"' rest).unread = rest := rfl
  have hoffset : (k.pass '"' rest).offset = k.offset + 1 := rfl
  rw [h, Utf8.size_cons, show '"'.utf8Size = 1 from rfl] at hsize
  have hlength := Utf8.length_le_size rest
  rw [Lexeme.read_quote, map_enclosed, searchString, move_one h]
  simp only [hfirst.eq_findIdx?, ← Utf8.indexOf?_eq_findIdx?, Lexeme.indexOf?_quoteByte, hinner]
  by_cases hmem : '"' ∈ rest
  · -- the byte found is the whole of a character, so the bytes moved end at an edge
    have hbytes := Utf8.size_takeWhile_add_one (show '"'.utf8Size = 1 from rfl) hmem
    have hpart := Utf8.size_take_le ((rest.takeWhile (· != '"')).length + 1) rest
    obtain ⟨back, hback⟩ := takeWhile_of_mem hmem
    have hcount := congrArg List.length hback
    rw [List.length_append, List.length_cons] at hcount
    have hmove : (k.pass '"' rest).moveBytes (Utf8.size (rest.takeWhile (· != '"')) + 1) =
        .ok ((k.pass '"' rest).move ((rest.takeWhile (· != '"')).length + 1)) :=
      moveBytes_edge (by omega) (by rw [hinner]; omega) (by rw [hinner, hbytes])
    rw [if_pos hmem, if_pos hmem, passage_succ h]
    simp only [Word.add_eq (show Utf8.size (rest.takeWhile (· != '"')) + 1 < Word.bound by omega),
      hmove, bind, Except.bind, move_count, hinner, Nat.min_eq_left (show
        (rest.takeWhile (· != '"')).length + 1 ≤ rest.length by omega),
      Word.add_eq (show 1 + ((rest.takeWhile (· != '"')).length + 1) < Word.bound by omega)]
    rw [Nat.add_comm 1]
    rfl
  · rw [if_neg hmem, if_neg hmem, Nat.add_comm, passage_succ h]
    simp only [moveToEnd, hinner, bind, Except.bind, move_count, Nat.min_self,
      Word.add_eq (show 1 + rest.length < Word.bound by omega), Nat.add_comm 1]
    rfl

/-- The search in a comment finds the piece that the scanner takes. -/
theorem searchComment_eq (h : k.unread = '#' :: rest) :
    k.searchComment find? rules.unterminated =
      .ok ((Lexeme.read rules '#' rest).map k.passage) := by
  have hmem : '\n' ∈ k.unread ↔ '\n' ∈ rest := by
    rw [h, List.mem_cons]
    exact or_iff_right (by decide)
  rw [Lexeme.read_hash, map_enclosed, searchComment]
  simp only [hfirst.eq_findIdx?, ← Utf8.indexOf?_eq_findIdx?, Lexeme.indexOf?_lineFeedByte, hmem]
  by_cases hbreak : '\n' ∈ rest
  · have hlength : (k.unread.takeWhile (· != '\n')).length =
        (rest.takeWhile (· != '\n')).length + 1 := by
      rw [h]
      rfl
    have hbytes := Utf8.size_takeWhile (· != '\n') k.unread
    have hpart := Utf8.size_take_le (k.unread.takeWhile (· != '\n')).length k.unread
    have hcount := (List.takeWhile_prefix (l := k.unread) (· != '\n')).length_le
    have hmove : k.moveBytes (Utf8.size (k.unread.takeWhile (· != '\n'))) =
        .ok (k.move (k.unread.takeWhile (· != '\n')).length) :=
      moveBytes_edge (by omega) hcount hbytes.symm
    rw [if_pos hbreak, if_pos hbreak, passage, ← hlength]
    simp only [hmove, bind, Except.bind, move_count, Nat.min_eq_left hcount]
    rfl
  · rw [if_neg hbreak, if_neg hbreak, passage]
    simp only [moveToEnd, move_count, Nat.min_self, h, List.length_cons, Nat.add_comm 1]
    rfl

end Alike

/-- A search for the closing byte reads what steps from character to character read. At a quote or
a comment mark, under every rule, in a text whose size is a word, the search arrives, and its result
is the only one that the steps can have: the same fault, or the same kind, number of characters and
reader behind them, place and all. It is the piece that the scanner takes there. -/
theorem searched_as_stepped (find? : UInt8 → List UInt8 → Option Nat) (hfirst : FindsFirst find?)
    (rules : Rules) (e : Enclosure) (k : TextReader) (hhere : k.here? = some e.opening)
    (hsize : k.offset + Utf8.size k.unread < Word.bound) :
    ∃ result, k.search find? e rules.unterminated = .ok result ∧
      (∀ result', k.Steps rules.unterminated e result' ↔ result' = result) ∧
      result = (Lexeme.read rules e.opening k.unread.tail).map k.passage := by
  obtain ⟨rest, hunread⟩ := List.head?_eq_some_iff.mp hhere
  refine ⟨_, ?_, fun result' => ?_, rfl⟩
  · rw [hunread, List.tail_cons]
    cases e with
    | string => exact searchString_eq rules hfirst hsize hunread
    | comment => exact searchComment_eq rules hfirst hsize hunread
  · rw [hunread, List.tail_cons]
    have hsteps : k.Steps rules.unterminated e
        ((Lexeme.read rules e.opening rest).map k.passage) := by
      cases e with
      | string => exact steps_string rules hunread
      | comment => exact steps_comment rules hunread
    exact ⟨fun h => h.unique hsteps, fun h => h ▸ hsteps⟩

/-- A literal with a break, a character of two bytes and another literal behind it. -/
theorem searched_as_stepped_string :
    let find? : UInt8 → List UInt8 → Option Nat := fun b bytes => bytes.findIdx? (· == b)
    let k : TextReader := ⟨.whenNext, ['"', 'é', '\n', '"', '"', '"'], 3, 1, 4⟩
    FindsFirst find? ∧ k.here? = some Enclosure.string.opening ∧
      k.offset + Utf8.size k.unread < Word.bound ∧
      k.search find? .string .strict =
        .ok (.ok ⟨.stringLiteral, 4, ⟨.whenNext, ['"', '"'], 8, 2, 3⟩⟩) ∧
      ∃ result, k.search find? .string .strict = .ok result ∧
        (∀ result', k.Steps .strict .string result' ↔ result' = result) ∧
        result = (Lexeme.read {} Enclosure.string.opening k.unread.tail).map k.passage := by
  intro find? k
  exact ⟨findsFirst_findIdx?, rfl, by decide, by rfl,
    searched_as_stepped find? findsFirst_findIdx? {} .string k rfl (by decide)⟩

end TextReader
end PhpTokens
