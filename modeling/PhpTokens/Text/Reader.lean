import PhpTokens.Rules.Basic
import PhpTokens.Text.Place
import PhpTokens.Text.Utf8

/-!
Reading a text from its start. The reader holds the text that is still unread and the place it has
reached, in bytes, lines and columns. It only moves forward, and every movement repeats the step
over one character, so the place depends on how many characters were passed and not on how they
were asked for.
-/
namespace PhpTokens

structure TextReader where
  newlines : NewlineRule
  unread : List Char
  /-- The number of bytes passed. -/
  offset : Nat := 0
  line : Nat := 1
  column : Nat := 1
  deriving DecidableEq, Repr

namespace TextReader

/-- The reader before the first character of a text. -/
def start (newlines : NewlineRule) (text : List Char) : TextReader := { newlines, unread := text }

def isDone (k : TextReader) : Bool := k.unread.isEmpty

/-- The next character. -/
def here? (k : TextReader) : Option Char := k.unread.head?

/-- The next `n` characters, or nothing if fewer are left. -/
def ahead (n : Nat) (k : TextReader) : List Char :=
  let front := k.unread.take n
  if front.length = n then front else []

/-- The place reached, for a piece of the length given. -/
def place (length : Nat) (k : TextReader) : Place := ⟨k.line, k.column, length⟩

/-- The reader behind `c` when `rest` follows it. A line break begins a line either when it is
passed or as soon as it comes next; in that case it takes up the first column of the new line. -/
def pass (c : Char) (rest : List Char) (k : TextReader) : TextReader :=
  let breaks := match k.newlines with
    | .whenPassed => c == '\n'
    | .whenNext => rest.head? == some '\n'
  { newlines := k.newlines
    unread := rest
    offset := k.offset + c.utf8Size
    line := if breaks then k.line + 1 else k.line
    column := if breaks then 1 else k.column + 1 }

/-- Passes up to `n` characters and adds their number to `passed`. -/
def moveFrom (passed : Nat) : Nat → TextReader → Nat × TextReader
  | 0, k => (passed, k)
  | n + 1, k =>
    match k.unread with
    | [] => (passed, k)
    | c :: rest => moveFrom (passed + 1) n (k.pass c rest)

/-- Passes `n` characters, or all that are left if they are fewer, and tells their number. -/
def move (n : Nat) (k : TextReader) : Nat × TextReader := moveFrom 0 n k

/-- Passes the characters that fill the next `n` bytes, or all that are left if they take fewer;
passes none if the bytes end inside a character. The offset behind the bytes must be a word. -/
def moveBytes (n : Nat) (k : TextReader) : Except WordFault (Nat × TextReader) := do
  let stop ← Word.add k.offset n
  let bytes := min stop (k.offset + Utf8.size k.unread) - k.offset
  return k.move ((Utf8.charsIn? bytes k.unread).getD 0)

/-- Passes all that is left. -/
def moveToEnd (k : TextReader) : Nat × TextReader := k.move k.unread.length

/-- Passes characters as long as they satisfy `p`. -/
def passWhile (p : Char → Bool) (k : TextReader) : TextReader :=
  (k.move (k.unread.takeWhile p).length).2

theorem moveFrom_zero (passed : Nat) (k : TextReader) : moveFrom passed 0 k = (passed, k) := by
  simp [moveFrom]

theorem moveFrom_nil {k : TextReader} (h : k.unread = []) (passed n : Nat) :
    moveFrom passed n k = (passed, k) := by
  cases n <;> simp [moveFrom, h]

theorem moveFrom_cons {k : TextReader} {c : Char} {rest : List Char} (h : k.unread = c :: rest)
    (passed n : Nat) :
    moveFrom passed (n + 1) k = moveFrom (passed + 1) n (k.pass c rest) := by
  rw [moveFrom, h]

/-- The count and the unread text after a movement. -/
theorem moveFrom_unread (passed n : Nat) (k : TextReader) :
    (moveFrom passed n k).1 = passed + min n k.unread.length ∧
      (moveFrom passed n k).2.unread = k.unread.drop n := by
  induction n generalizing passed k with
  | zero => simp [moveFrom_zero]
  | succ n ih =>
    cases h : k.unread with
    | nil => simp [moveFrom_nil h, h]
    | cons c rest =>
      rw [moveFrom_cons h]
      obtain ⟨hcount, hrest⟩ := ih (passed + 1) (k.pass c rest)
      rw [hcount, hrest]
      simp only [pass, List.length_cons, List.drop_succ_cons, and_true]
      omega

@[simp] theorem move_count (n : Nat) (k : TextReader) :
    (k.move n).1 = min n k.unread.length := by
  simpa [move] using (moveFrom_unread 0 n k).1

@[simp] theorem move_unread (n : Nat) (k : TextReader) :
    (k.move n).2.unread = k.unread.drop n := by
  simpa [move] using (moveFrom_unread 0 n k).2

theorem passWhile_unread (p : Char → Bool) (k : TextReader) :
    (k.passWhile p).unread = k.unread.dropWhile p := by
  rw [passWhile, move_unread]
  induction k.unread with
  | nil => rfl
  | cons c rest ih => by_cases h : p c = true <;> simp [h, ih]

end TextReader
end PhpTokens
