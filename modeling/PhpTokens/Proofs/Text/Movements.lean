import Mathlib.Algebra.GroupWithZero.Nat
import PhpTokens.Proofs.Text.LineColumn

/-! Movements of all sorts, mixed. A reader may be moved by characters, by bytes or to the end of
its text, in any order. Two movements in turn are one by the sum of what they passed, so the reader
stands where a single movement by that many characters would have taken it. What a movement passes
is read off the text in front of the reader: bytes that end inside a character move nothing, and
only an offset that is no word is refused. -/

namespace PhpTokens

theorem Word.add_eq {a b : Nat} (h : a + b < bound) : add a b = .ok (a + b) := if_pos h

/-- What a reader can be asked to pass. -/
inductive Movement where
  | chars (n : Nat)
  | bytes (n : Nat)
  /-- All that is left. -/
  | toEnd
  deriving DecidableEq, Repr

namespace TextReader

/-- Makes one movement and tells the number of characters passed. -/
def make (k : TextReader) : Movement → Except WordFault (Nat × TextReader)
  | .chars n => .ok (k.move n)
  | .bytes n => k.moveBytes n
  | .toEnd => .ok k.moveToEnd

/-- Makes movements in turn and tells what each of them passed. -/
def makeAll (k : TextReader) : List Movement → Except WordFault (List Nat × TextReader)
  | [] => .ok ([], k)
  | movement :: movements => do
    let (count, next) ← k.make movement
    let (counts, last) ← next.makeAll movements
    return (count :: counts, last)

theorem move_zero (k : TextReader) : k.move 0 = (0, k) := moveFrom_zero 0 k

theorem move_nil {k : TextReader} (h : k.unread = []) (n : Nat) : k.move n = (0, k) :=
  moveFrom_nil h 0 n

/-- The count that a movement begins with does not change where it leads. -/
theorem moveFrom_eq (passed n : Nat) (k : TextReader) :
    moveFrom passed n k = (passed + (k.move n).1, (k.move n).2) := by
  induction n generalizing passed k with
  | zero => rw [moveFrom_zero, move_zero, Nat.add_zero]
  | succ n ih =>
    cases h : k.unread with
    | nil => rw [moveFrom_nil h, move_nil h, Nat.add_zero]
    | cons c rest =>
      rw [move, moveFrom_cons h, moveFrom_cons h, ih, ih (0 + 1)]
      simp [Nat.add_assoc]

theorem move_cons {k : TextReader} {c : Char} {rest : List Char} (h : k.unread = c :: rest)
    (n : Nat) :
    k.move (n + 1) = (1 + ((k.pass c rest).move n).1, ((k.pass c rest).move n).2) := by
  rw [move, moveFrom_cons h, moveFrom_eq, Nat.zero_add]

theorem move_one {k : TextReader} {c : Char} {rest : List Char} (h : k.unread = c :: rest) :
    k.move 1 = (1, k.pass c rest) := by
  simp only [move_cons h, move_zero, Nat.add_zero]

/-- Two movements in turn are one by the sum. -/
theorem move_add (m n : Nat) (k : TextReader) :
    k.move (m + n) = ((k.move m).1 + ((k.move m).2.move n).1, ((k.move m).2.move n).2) := by
  induction m generalizing k with
  | zero => rw [Nat.zero_add, move_zero, Nat.zero_add]
  | succ m ih =>
    rw [Nat.succ_add]
    cases h : k.unread with
    | nil => simp only [move_nil h, Nat.add_zero]
    | cons c rest => rw [move_cons h, move_cons h, ih, Nat.add_assoc]

/-- Asking for more than there is is asking for all of it. -/
theorem move_min (n : Nat) (k : TextReader) : k.move (min n k.unread.length) = k.move n := by
  rcases Nat.le_total n k.unread.length with hle | hle
  · rw [Nat.min_eq_left hle]
  · obtain ⟨more, rfl⟩ := Nat.exists_eq_add_of_le hle
    have hnone : (k.move k.unread.length).2.unread = [] := by simp
    rw [Nat.min_eq_right hle, move_add, move_nil hnone, Nat.add_zero]

theorem move_of_le {n : Nat} {k : TextReader} (h : n ≤ k.unread.length) :
    k.move n = (n, (k.move n).2) := by
  rw [Prod.ext_iff, move_count, Nat.min_eq_left h]
  exact ⟨rfl, rfl⟩

theorem moveBytes_eq {n : Nat} {k : TextReader} (h : k.offset + n < Word.bound) :
    k.moveBytes n =
      .ok (k.move ((Utf8.charsIn? (min n (Utf8.size k.unread)) k.unread).getD 0)) := by
  have hbytes : min (k.offset + n) (k.offset + Utf8.size k.unread) - k.offset =
      min n (Utf8.size k.unread) := by omega
  simp only [moveBytes, Word.add_eq h, bind, Except.bind, hbytes]
  rfl

theorem moveBytes_eq_error_iff {n : Nat} {k : TextReader} :
    (∃ fault, k.moveBytes n = .error fault) ↔ Word.bound ≤ k.offset + n := by
  by_cases h : k.offset + n < Word.bound
  · rw [moveBytes_eq h]
    simpa using h
  · simp only [moveBytes, Word.add, if_neg h, bind, Except.bind]
    exact iff_of_true ⟨_, rfl⟩ (Nat.le_of_not_lt h)

/-- Bytes that take in all that is left pass all of it. -/
theorem moveBytes_all {n : Nat} {k : TextReader} (h : k.offset + n < Word.bound)
    (hn : Utf8.size k.unread ≤ n) : k.moveBytes n = .ok k.moveToEnd := by
  have hall : Utf8.charsIn? (Utf8.size k.unread) k.unread = some k.unread.length := by
    rw [Utf8.charsIn?_eq_some_iff, List.take_length]
    exact ⟨Nat.le_refl _, rfl⟩
  rw [moveBytes_eq h, Nat.min_eq_right hn, hall, Option.getD_some, moveToEnd]

/-- Bytes that end at the edge of a character pass the characters up to there. -/
theorem moveBytes_edge {n m : Nat} {k : TextReader} (h : k.offset + n < Word.bound)
    (hm : m ≤ k.unread.length) (hedge : Utf8.size (k.unread.take m) = n) :
    k.moveBytes n = .ok (k.move m) := by
  have hle : n ≤ Utf8.size k.unread := by
    have hmono := Utf8.size_take_mono hm k.unread
    rwa [List.take_length, hedge] at hmono
  rw [moveBytes_eq h, Nat.min_eq_left hle, Utf8.charsIn?_eq_some_iff.mpr ⟨hm, hedge⟩,
    Option.getD_some]

/-- Bytes that end inside a character pass nothing. -/
theorem moveBytes_inside {n : Nat} {k : TextReader} (h : k.offset + n < Word.bound)
    (hn : n < Utf8.size k.unread)
    (hinside : ∀ m ≤ k.unread.length, Utf8.size (k.unread.take m) ≠ n) :
    k.moveBytes n = .ok (0, k) := by
  have hnone : Utf8.charsIn? n k.unread = none := by
    rw [Option.eq_none_iff_forall_ne_some]
    intro m hsome
    obtain ⟨hm, hsize⟩ := Utf8.charsIn?_eq_some_iff.mp hsome
    exact hinside m hm hsize
  rw [moveBytes_eq h, Nat.min_eq_left (Nat.le_of_lt hn), hnone, Option.getD_none,
    move_zero]

/-- Every movement is one by characters, of which there are enough. -/
theorem move_of_make {k next : TextReader} {movement : Movement} {count : Nat}
    (h : k.make movement = .ok (count, next)) :
    count ≤ k.unread.length ∧ k.move count = (count, next) := by
  have hmove (n : Nat) (hn : k.move n = (count, next)) :
      count ≤ k.unread.length ∧ k.move count = (count, next) := by
    have hcount : min n k.unread.length = count := by rw [← move_count, hn]
    rw [← hcount, move_min, hn, hcount]
    exact ⟨hcount ▸ Nat.min_le_right _ _, rfl⟩
  cases movement with
  | chars n => exact hmove n (Except.ok.inj h)
  | bytes n =>
    by_cases hsum : k.offset + n < Word.bound
    · rw [make, moveBytes_eq hsum] at h
      exact hmove _ (Except.ok.inj h)
    · obtain ⟨fault, hfault⟩ := moveBytes_eq_error_iff.mpr (Nat.le_of_not_lt hsum)
      rw [make, hfault] at h
      cases h
  | toEnd => exact hmove k.unread.length (Except.ok.inj h)

/-- Movements in turn are one by all the characters that they passed. -/
theorem move_of_makeAll {k last : TextReader} {movements : List Movement} {counts : List Nat}
    (h : k.makeAll movements = .ok (counts, last)) :
    counts.sum ≤ k.unread.length ∧ k.move counts.sum = (counts.sum, last) := by
  induction movements generalizing k counts with
  | nil =>
    cases h
    exact ⟨Nat.zero_le _, by rw [List.sum_nil, move_zero]⟩
  | cons movement movements ih =>
    rw [makeAll] at h
    cases hfirst : k.make movement with
    | error fault =>
      rw [hfirst] at h
      cases h
    | ok first =>
      obtain ⟨count, next⟩ := first
      rw [hfirst] at h
      cases hrest : next.makeAll movements with
      | error fault => simp [hrest, bind, Except.bind] at h
      | ok others =>
        obtain ⟨rest, last'⟩ := others
        simp only [hrest, bind, Except.bind] at h
        cases h
        obtain ⟨hcount, hmove⟩ := move_of_make hfirst
        obtain ⟨hsum, hlast⟩ := ih hrest
        have hleft : next.unread.length = k.unread.length - count := by
          rw [← congrArg (fun moved => moved.2.unread.length) hmove]
          simp
        rw [List.sum_cons, move_add, hmove, hlast]
        exact ⟨by omega, rfl⟩

/-- A movement within a text ends within it. -/
theorem exists_move_behind (rule : NewlineRule) {text : List Char} {n : Nat} (hn : n ≤ text.length)
    (m : Nat) : ∃ i ≤ text.length, ((behind rule text n).move m).2 = behind rule text i := by
  have hlength : (behind rule text n).unread.length = text.length - n := List.length_drop
  have hle : n + min m (text.length - n) ≤ text.length := by omega
  refine ⟨_, hle, ?_⟩
  rw [← move_min, hlength, move_behind hle]

/-- Movements of all sorts lead to the reader from the start of a text. -/
def Reached (rule : NewlineRule) (text : List Char) (k : TextReader) : Prop :=
  ∃ movements counts, (start rule text).makeAll movements = .ok (counts, k)

/-- The readers reached are those behind some characters of the text. -/
theorem reached_iff {rule : NewlineRule} {text : List Char} {k : TextReader} :
    k.Reached rule text ↔ ∃ n ≤ text.length, k = behind rule text n := by
  constructor
  · rintro ⟨movements, counts, h⟩
    obtain ⟨_, hmove⟩ := move_of_makeAll h
    rw [start_eq_behind] at hmove
    obtain ⟨n, hn, hbehind⟩ := exists_move_behind rule (Nat.zero_le text.length) counts.sum
    rw [hmove] at hbehind
    exact ⟨n, hn, hbehind⟩
  · rintro ⟨n, hn, rfl⟩
    have hmove := move_behind (show 0 + n ≤ text.length by omega) rule
    refine ⟨[.chars n], [n], ?_⟩
    simp only [makeAll, make, start_eq_behind, hmove, Nat.zero_add, bind, Except.bind]
    rfl

/-- What each movement of a reader in a text passes. The greatest word is `2 ^ 64 - 1`. -/
structure Moves (text : List Char) (k : TextReader) : Prop where
  chars : ∀ n, (k.move n).1 = min n k.unread.length
  bytes_refused : ∀ n, (∃ fault, k.moveBytes n = .error fault) ↔ 2 ^ 64 - 1 < k.offset + n
  /-- Bytes that reach the end or would go beyond it. -/
  bytes_all : ∀ n, k.offset + n ≤ 2 ^ 64 - 1 → Utf8.size text ≤ k.offset + n →
    ∃ after, k.moveBytes n = .ok (k.unread.length, after)
  bytes_edge : ∀ n m, k.offset + n ≤ 2 ^ 64 - 1 → m ≤ k.unread.length →
    Utf8.size (k.unread.take m) = n → ∃ after, k.moveBytes n = .ok (m, after)
  bytes_inside : ∀ n, k.offset + n ≤ 2 ^ 64 - 1 → k.offset + n < Utf8.size text →
    (∀ m ≤ k.unread.length, Utf8.size (k.unread.take m) ≠ n) → k.moveBytes n = .ok (0, k)
  toEnd : k.moveToEnd.1 = k.unread.length
  toEnd_done : k.moveToEnd.2.isDone = true ∧ k.moveToEnd.2.offset = Utf8.size text
  /-- To the end is as many bytes as are left. -/
  toEnd_bytes : Utf8.size text ≤ 2 ^ 64 - 1 →
    k.moveBytes (Utf8.size text - k.offset) = .ok k.moveToEnd

theorem moves_behind (rule : NewlineRule) {text : List Char} {n : Nat} (hn : n ≤ text.length) :
    (behind rule text n).Moves text := by
  have hbound : Word.bound = 2 ^ 64 := rfl
  have hlength : (behind rule text n).unread.length = text.length - n := List.length_drop
  have hsize : (behind rule text n).offset + Utf8.size (behind rule text n).unread =
      Utf8.size text := Utf8.size_take_add_drop n text
  have hend : (behind rule text n).moveToEnd =
      (text.length - n, behind rule text text.length) := by
    rw [moveToEnd, hlength, move_behind (by omega), Nat.add_sub_cancel' hn]
  refine ⟨fun m => move_count m _, fun m => ?_, fun m hword hall => ?_,
    fun m count hword hcount hedge => ?_, fun m hword hlt hinside => ?_, ?_, ?_, fun hword => ?_⟩
  · rw [moveBytes_eq_error_iff]
    omega
  · exact ⟨_, by rw [moveBytes_all (by omega) (by omega), hend, hlength]⟩
  · exact ⟨_, by rw [moveBytes_edge (by omega) hcount hedge, move_of_le hcount]⟩
  · exact moveBytes_inside (by omega) (by omega) hinside
  · rw [hend, hlength]
  · rw [hend]
    simp [isDone, behind]
  · exact moveBytes_all (by omega) (by omega)

/-- Where a reader stands depends on the number of characters passed and on nothing else. After any
movements that are not refused, it stands where one movement by that many characters takes a new
reader, with as many bytes behind it as these characters have; and from there every movement passes
what the text ahead allows. -/
theorem moved_by_count (rule : NewlineRule) (text : List Char) (movements : List Movement)
    (counts : List Nat) (k : TextReader)
    (h : (start rule text).makeAll movements = .ok (counts, k)) :
    (start rule text).move counts.sum = (counts.sum, k) ∧
      counts.sum ≤ text.length ∧
      k.offset = Utf8.size (text.take counts.sum) ∧
      k.unread = text.drop counts.sum ∧
      k.Moves text := by
  obtain ⟨hle, hmove⟩ := move_of_makeAll h
  have hle' : 0 + counts.sum ≤ text.length := by
    rw [Nat.zero_add]
    exact hle
  have hbehind := move_behind hle' rule
  rw [← start_eq_behind, hmove, Nat.zero_add] at hbehind
  obtain rfl : k = behind rule text counts.sum := congrArg Prod.snd hbehind
  exact ⟨hmove, hle, rfl, rfl, moves_behind rule hle⟩

/-- Bytes that end inside `é` or beyond the text, under the timing that looks ahead. -/
theorem moved_by_count_mixed :
    let text := ['é', '\n', 'ü', 'b']
    let k : TextReader := ⟨.whenNext, [], 6, 2, 4⟩
    (start .whenNext text).makeAll [.bytes 1, .chars 1, .bytes 3, .bytes 0, .chars 7, .toEnd] =
        .ok ([0, 1, 2, 0, 1, 0], k) ∧
      (start .whenNext text).move [0, 1, 2, 0, 1, 0].sum = ([0, 1, 2, 0, 1, 0].sum, k) ∧
      [0, 1, 2, 0, 1, 0].sum ≤ text.length ∧
      k.offset = Utf8.size (text.take [0, 1, 2, 0, 1, 0].sum) ∧
      k.unread = text.drop [0, 1, 2, 0, 1, 0].sum ∧
      k.Moves text := by
  have hmoves : (start .whenNext ['é', '\n', 'ü', 'b']).makeAll
      [.bytes 1, .chars 1, .bytes 3, .bytes 0, .chars 7, .toEnd] =
        .ok ([0, 1, 2, 0, 1, 0], ⟨.whenNext, [], 6, 2, 4⟩) := by rfl
  exact ⟨hmoves, moved_by_count _ _ _ _ _ hmoves⟩

end TextReader
end PhpTokens
