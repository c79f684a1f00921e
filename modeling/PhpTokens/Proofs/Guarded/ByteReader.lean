import PhpTokens.Proofs.SourceText
import PhpTokens.Proofs.Text.LineColumn

/-! A reader that has the whole text and its byte offset, and checks everything that could go wrong:
every part of a text that it takes, every sum and every difference, and the number of rounds of
every loop. In texts of less than half the range of words nothing ever goes wrong, and the reader
goes through the same places as one that holds the unread text. -/

namespace PhpTokens

/-- What would stop a program in the middle of a request. -/
inductive Trap where
  /-- Arithmetic without a result among the words. -/
  | word (fault : WordFault)
  /-- A part of a text is taken whose ends are not edges of characters in order. -/
  | part (extent : Extent)
  /-- A movement by bytes ends inside a character, at this offset, and would pass nothing. -/
  | inside (offset : Nat)
  /-- A token is made of no text. -/
  | standstill
  /-- A loop has had a round for every character, and one more, and goes on. -/
  | endless
  deriving DecidableEq, Repr

namespace Guarded

def add (a b : Nat) : Except Trap Nat := (Word.add a b).mapError .word

def sub (a b : Nat) : Except Trap Nat := (Word.sub a b).mapError .word

/-- The part of a text that an extent names. -/
def part (extent : Extent) (text : List Char) : Except Trap (List Char) :=
  match SourceText.partOf? extent text with
  | some part => .ok part
  | none => .error (.part extent)

theorem add_eq {a b : Nat} (h : a + b < Word.bound) : add a b = .ok (a + b) := by
  rw [add, Word.add, if_pos h]
  rfl

theorem sub_eq {a b : Nat} (h : b ≤ a) : sub a b = .ok (a - b) := by
  rw [sub, Word.sub, if_pos h]
  rfl

/-- The greatest number of bytes in a text that has a place in memory. -/
def maxSize : Nat := (1 <<< 63) - 1

end Guarded

open Guarded (add sub part maxSize)

structure ByteReader where
  newlines : NewlineRule
  text : List Char
  /-- The number of bytes passed. -/
  offset : Nat := 0
  line : Nat := 1
  column : Nat := 1
  deriving DecidableEq, Repr

namespace ByteReader

/-- The text from the reader on. -/
def rest (k : ByteReader) : Except Trap (List Char) :=
  match SourceText.dropBytes? k.offset k.text with
  | some rest => .ok rest
  | none => .error (.part ⟨k.offset, Utf8.size k.text⟩)

def here? (k : ByteReader) : Except Trap (Option Char) := do
  return (← k.rest).head?

/-- The next `n` characters, up to the edge where the character behind them begins, or nothing if
fewer are left. -/
def ahead (n : Nat) (k : ByteReader) : Except Trap (List Char) := do
  let rest ← k.rest
  if n < rest.length then part ⟨0, Utf8.size (rest.take n)⟩ rest
  else if n = rest.length then return rest
  else return []

def toNextLine (k : ByteReader) : Except Trap ByteReader := do
  return { k with line := ← add k.line 1, column := 1 }

def toNextColumn (k : ByteReader) : Except Trap ByteReader := do
  return { k with column := ← add k.column 1 }

/-- The reader behind `c`, which stands here. -/
def pass (c : Char) (k : ByteReader) : Except Trap ByteReader := do
  let k := { k with offset := ← add k.offset c.utf8Size }
  match k.newlines with
  | .whenPassed => if c = '\n' then k.toNextLine else k.toNextColumn
  | .whenNext =>
    let k ← k.toNextColumn
    if (← k.here?) = some '\n' then k.toNextLine else return k

/-- Passes up to `n` characters and adds their number to `passed`. -/
def moveFrom (passed : Nat) : Nat → ByteReader → Except Trap (Nat × ByteReader)
  | 0, k => .ok (passed, k)
  | n + 1, k => do
    match ← k.here? with
    | none => return (passed, k)
    | some c => moveFrom (← add passed 1) n (← k.pass c)

def move (n : Nat) (k : ByteReader) : Except Trap (Nat × ByteReader) := moveFrom 0 n k

/-- Passes the characters that fill the next `n` bytes, or all that are left if they take fewer. -/
def moveBytes (n : Nat) (k : ByteReader) : Except Trap (Nat × ByteReader) := do
  let stop := min (← add k.offset n) (Utf8.size k.text)
  match SourceText.partOf? ⟨k.offset, stop⟩ k.text with
  | some passed => k.move passed.length
  | none => .error (.inside stop)

def moveToEnd (k : ByteReader) : Except Trap (Nat × ByteReader) := do
  k.moveBytes (← sub (Utf8.size k.text) k.offset)

/-- Passes characters one by one as long as they satisfy `p`, and adds their number to `passed`. -/
def passWhileFrom (p : Char → Bool) (passed : Nat) :
    Nat → ByteReader → Except Trap (Nat × ByteReader)
  | 0, _ => .error .endless
  | rounds + 1, k => do
    match ← k.here? with
    | none => return (passed, k)
    | some c =>
      if p c then
        let (n, next) ← k.move 1
        passWhileFrom p (← add passed n) rounds next
      else return (passed, k)

def passWhile (p : Char → Bool) (k : ByteReader) : Except Trap (Nat × ByteReader) :=
  passWhileFrom p 0 (k.text.length + 1) k

/-- The first entry of a table that fits the text ahead, as far as the entry reaches. -/
def findAhead? {α : Type} (reach : α → Nat) (fits : α → List Char → Bool) (k : ByteReader) :
    List α → Except Trap (Option α)
  | [] => .ok none
  | a :: table => do
    if fits a (← k.ahead (reach a)) then return some a else k.findAhead? reach fits table

/-- The reader that stands behind the first `n` characters of a text. -/
def behind (rule : NewlineRule) (text : List Char) (n : Nat) : ByteReader :=
  { newlines := rule
    text
    offset := Utf8.size (text.take n)
    line := rule.line text n
    column := rule.column text n }

section Behind

variable (rule : NewlineRule) {text : List Char} {n : Nat}

theorem rest_behind (hn : n ≤ text.length) : (behind rule text n).rest = .ok (text.drop n) := by
  have hrest : SourceText.dropBytes? (behind rule text n).offset (behind rule text n).text =
      some (text.drop n) := SourceText.dropBytes?_eq_some_iff.mpr ⟨n, hn, rfl, rfl⟩
  rw [rest, hrest]

theorem here?_behind (hn : n ≤ text.length) :
    (behind rule text n).here? = .ok (text.drop n).head? := by
  rw [here?, rest_behind rule hn]
  rfl

/-- Inside a character nothing can be read. -/
example : ({ newlines := .whenPassed, text := ['é'], offset := 1 } : ByteReader).here? =
    .error (.part ⟨1, 2⟩) := by rfl

/-- The characters ahead are those that a reader of the unread text sees. -/
theorem ahead_behind (hn : n ≤ text.length) (m : Nat) :
    (behind rule text n).ahead m = .ok ((TextReader.behind rule text n).ahead m) := by
  have hpart (h : m < (text.drop n).length) :
      part ⟨0, Utf8.size ((text.drop n).take m)⟩ (text.drop n) = .ok ((text.drop n).take m) := by
    have hsome : SourceText.partOf? ⟨0, Utf8.size ((text.drop n).take m)⟩ (text.drop n) =
        some ((text.drop n).take m) :=
      SourceText.partOf?_eq_some_iff.mpr ⟨0, m, Nat.zero_le m, Nat.le_of_lt h, rfl, rfl, rfl⟩
    rw [part, hsome]
  rw [ahead, rest_behind rule hn]
  simp only [bind, Except.bind, TextReader.ahead, TextReader.behind, List.length_take]
  split
  · next h =>
    rw [hpart h, if_pos (by omega)]
  · split
    · next h =>
      rw [if_pos (by omega), h, List.take_length]
      rfl
    · rw [if_neg (by omega)]
      rfl

end Behind

end ByteReader

namespace NewlineRule

theorem line_le (rule : NewlineRule) (text : List Char) (k : Nat) : rule.line text k ≤ k + 1 := by
  induction k with
  | zero => simp [line, breaks_zero]
  | succ k ih =>
    rw [line_succ]
    split <;> omega

theorem column_le (rule : NewlineRule) (text : List Char) (k : Nat) :
    rule.column text k ≤ k + 1 := by
  induction k with
  | zero => simp [column, breaks_zero]
  | succ k ih =>
    rw [column_succ]
    split <;> omega

end NewlineRule

namespace ByteReader

section Sized

variable {text : List Char} {n m : Nat}

/-- A sum that stays close to the size of the text is a word. -/
theorem add_sized (hsize : Utf8.size text ≤ maxSize) {a b : Nat}
    (h : a + b ≤ Utf8.size text + 2) : add a b = .ok (a + b) := by
  have hmax : maxSize + 3 ≤ Word.bound := by decide
  exact Guarded.add_eq (by omega)

theorem pass_behind (hsize : Utf8.size text ≤ maxSize) (rule : NewlineRule) {c : Char}
    (hc : text[n]? = some c) :
    (behind rule text n).pass c = .ok (behind rule text (n + 1)) := by
  have hn := (List.getElem?_eq_some_iff.mp hc).1
  have hlength := Utf8.length_le_size text
  have hoffset : Utf8.size (text.take n) + c.utf8Size = Utf8.size (text.take (n + 1)) :=
    congrArg TextReader.offset (TextReader.pass_behind hc rule)
  have htake := Utf8.size_take_le (n + 1) text
  have hline := rule.line_le text n
  have hcolumn := rule.column_le text n
  have hadd : add (Utf8.size (text.take n)) c.utf8Size = .ok (Utf8.size (text.take (n + 1))) := by
    rw [add_sized hsize (by omega), hoffset]
  have hdown : add (rule.line text n) 1 = .ok (rule.line text n + 1) :=
    add_sized hsize (by omega)
  have hright : add (rule.column text n) 1 = .ok (rule.column text n + 1) :=
    add_sized hsize (by omega)
  simp only [pass, behind, hadd, bind, Except.bind]
  rw [rule.line_succ, rule.column_succ]
  cases rule with
  | whenPassed =>
    simp only [NewlineRule.isBreak, NewlineRule.reach, hc, Option.some_beq_some, beq_iff_eq]
    split
    · simp only [toNextLine, hdown]
      rfl
    · simp only [toNextColumn, hright]
      rfl
  | whenNext =>
    have hhere : here? ⟨.whenNext, text, Utf8.size (text.take (n + 1)),
        NewlineRule.whenNext.line text n, NewlineRule.whenNext.column text n + 1⟩ =
          .ok text[n + 1]? := by
      have hrest := here?_behind .whenNext (Nat.succ_le_of_lt hn)
      rw [List.head?_drop] at hrest
      exact hrest
    have hlt : 1 ≤ n + 1 := Nat.le_add_left 1 n
    simp only [toNextColumn, hright, NewlineRule.isBreak, NewlineRule.reach, hlt, decide_true,
      Bool.true_and, beq_iff_eq, bind, Except.bind, pure, Except.pure, hhere]
    split
    · simp only [toNextLine, hdown]
      rfl
    · rfl

theorem moveFrom_behind (hsize : Utf8.size text ≤ maxSize) (rule : NewlineRule) {passed : Nat}
    (h : n + m ≤ text.length) (hpassed : passed + m ≤ text.length) :
    moveFrom passed m (behind rule text n) = .ok (passed + m, behind rule text (n + m)) := by
  have hlength := Utf8.length_le_size text
  induction m generalizing passed n with
  | zero => rfl
  | succ m ih =>
    have hn : n < text.length := by omega
    have hc : text[n]? = some text[n] := List.getElem?_eq_getElem hn
    rw [moveFrom, here?_behind rule (Nat.le_of_lt hn), List.head?_drop, hc]
    simp only [bind, Except.bind, pass_behind hsize rule hc]
    rw [add_sized hsize (by omega)]
    simp only
    rw [ih (by omega) (by omega), Nat.add_assoc, Nat.add_comm 1 m, Nat.add_assoc,
      Nat.add_comm 1 m]

theorem move_behind (hsize : Utf8.size text ≤ maxSize) (rule : NewlineRule)
    (h : n + m ≤ text.length) :
    (behind rule text n).move m = .ok (m, behind rule text (n + m)) := by
  have hmove := moveFrom_behind hsize rule h (show 0 + m ≤ text.length by omega)
  rwa [Nat.zero_add] at hmove

/-- A movement by the bytes of some characters passes these characters. -/
theorem moveBytes_behind (hsize : Utf8.size text ≤ maxSize) (rule : NewlineRule)
    (h : n + m ≤ text.length) :
    (behind rule text n).moveBytes (Utf8.size ((text.drop n).take m)) =
      .ok (m, behind rule text (n + m)) := by
  have hstop := Utf8.size_take_add n m text
  have htake := Utf8.size_take_le (n + m) text
  have hadd : add (Utf8.size (text.take n)) (Utf8.size ((text.drop n).take m)) =
      .ok (Utf8.size (text.take (n + m))) := by
    rw [add_sized hsize (by omega), hstop]
  have hpart : SourceText.partOf? ⟨Utf8.size (text.take n), Utf8.size (text.take (n + m))⟩ text =
      some ((text.drop n).take m) :=
    SourceText.partOf?_eq_some_iff.mpr
      ⟨n, n + m, Nat.le_add_right n m, h, rfl, rfl, by rw [Nat.add_sub_cancel_left]⟩
  have hcount : ((text.drop n).take m).length = m := by
    rw [List.length_take, List.length_drop]
    omega
  have hmove := move_behind hsize rule h
  rw [moveBytes]
  simp only [behind] at hmove ⊢
  simp only [hadd, bind, Except.bind, Nat.min_eq_left htake, hpart, hcount, hmove]

/-- Bytes that end inside a character make no movement. -/
example : (behind .whenPassed ['é'] 0).moveBytes 1 = .error (.inside 1) := by rfl

theorem moveToEnd_behind (hsize : Utf8.size text ≤ maxSize) (rule : NewlineRule)
    (hn : n ≤ text.length) :
    (behind rule text n).moveToEnd =
      .ok (text.length - n, behind rule text text.length) := by
  have hsplit := Utf8.size_take_add_drop n text
  have hsub : sub (Utf8.size text) (Utf8.size (text.take n)) =
      .ok (Utf8.size ((text.drop n).take (text.length - n))) := by
    rw [Guarded.sub_eq (by omega), ← List.length_drop, List.take_length]
    congr 1
    omega
  have hmove := moveBytes_behind hsize rule (show n + (text.length - n) ≤ text.length by omega)
  rw [Nat.add_sub_cancel' hn] at hmove
  rw [moveToEnd]
  simp only [behind] at hmove ⊢
  simp only [hsub, bind, Except.bind, hmove]

theorem passWhileFrom_behind (hsize : Utf8.size text ≤ maxSize) (rule : NewlineRule)
    (p : Char → Bool) {passed rounds : Nat} (hn : n ≤ text.length) (hpassed : passed ≤ n)
    (hrounds : text.length < n + rounds) :
    passWhileFrom p passed rounds (behind rule text n) =
      .ok (passed + ((text.drop n).takeWhile p).length,
        behind rule text (n + ((text.drop n).takeWhile p).length)) := by
  have hlength := Utf8.length_le_size text
  -- every round but the last one passes a character, so the rounds left exceed those unread
  induction rounds generalizing passed n with
  | zero => omega
  | succ rounds ih =>
    rw [passWhileFrom, here?_behind rule hn]
    rcases Nat.lt_or_eq_of_le hn with hlt | rfl
    · rw [List.drop_eq_getElem_cons hlt]
      simp only [bind, Except.bind, List.head?_cons]
      by_cases hp : p text[n] = true
      · have hmove := move_behind hsize rule (show n + 1 ≤ text.length from hlt)
        rw [if_pos hp, hmove]
        simp only
        rw [add_sized hsize (by omega)]
        simp only
        rw [ih (by omega) (by omega) (by omega), List.takeWhile_cons_of_pos hp, List.length_cons]
        congr 2
        · omega
        · congr 1
          omega
      · rw [if_neg hp, List.takeWhile_cons_of_neg hp]
        rfl
    · rw [List.drop_length]
      rfl

theorem passWhile_behind (hsize : Utf8.size text ≤ maxSize) (rule : NewlineRule)
    (p : Char → Bool) (hn : n ≤ text.length) :
    (behind rule text n).passWhile p =
      .ok (((text.drop n).takeWhile p).length,
        behind rule text (n + ((text.drop n).takeWhile p).length)) := by
  have hpass := passWhileFrom_behind hsize rule p hn (Nat.zero_le n)
    (show text.length < n + (text.length + 1) by omega)
  rwa [Nat.zero_add] at hpass

theorem findAhead?_behind (rule : NewlineRule) (hn : n ≤ text.length) {α : Type}
    (reach : α → Nat) (fits : α → List Char → Bool) (table : List α) :
    (behind rule text n).findAhead? reach fits table =
      .ok (table.find? fun a => fits a ((TextReader.behind rule text n).ahead (reach a))) := by
  induction table with
  | nil => rfl
  | cons a table ih =>
    rw [findAhead?, ahead_behind rule hn, List.find?_cons]
    cases hfits : fits a ((TextReader.behind rule text n).ahead (reach a)) with
    | true => simp [hfits, bind, Except.bind, pure, Except.pure]
    | false => simp [hfits, ih, bind, Except.bind]

end Sized
end ByteReader
end PhpTokens
