import PhpTokens.Text.Reader
import PhpTokens.Proofs.Text.Utf8

/-! The line and the column at an index of a text, read off the line breaks in it, and the reader
that stands there. A reader that is moved from the start is always one of these, so its place is a
function of the number of characters passed. -/

namespace PhpTokens
namespace NewlineRule

/-- A line break that begins a line: under `whenNext` the first character never does. -/
def isBreak (rule : NewlineRule) (text : List Char) (j : Nat) : Bool :=
  match rule with
  | .whenPassed => text[j]? == some '\n'
  | .whenNext => 1 ≤ j && text[j]? == some '\n'

/-- The number of leading indices whose breaks count at index `k`: those passed, and under
`whenNext` the one that comes next. -/
def reach (rule : NewlineRule) (k : Nat) : Nat :=
  match rule with
  | .whenPassed => k
  | .whenNext => k + 1

/-- The indices of the breaks that count at index `k`. -/
def breaks (rule : NewlineRule) (text : List Char) (k : Nat) : List Nat :=
  (List.range (rule.reach k)).filter (rule.isBreak text)

def line (rule : NewlineRule) (text : List Char) (k : Nat) : Nat :=
  1 + (rule.breaks text k).length

/-- The distance from the last break that counts. A break that comes next has the first column. -/
def column (rule : NewlineRule) (text : List Char) (k : Nat) : Nat :=
  match (rule.breaks text k).max? with
  | some m => rule.reach k - m
  | none => k + 1

/-- A break in front of everything never counts; the next one does before it is passed. -/
example : whenNext.line ['\n', 'a', '\n'] 2 = 2 ∧ whenPassed.line ['\n', 'a', '\n'] 2 = 2 ∧
    whenNext.line ['\n', 'a', '\n'] 1 = 1 ∧ whenNext.column ['\n', 'a', '\n'] 2 = 1 := by
  decide

theorem breaks_succ (rule : NewlineRule) (text : List Char) (k : Nat) :
    rule.breaks text (k + 1) =
      rule.breaks text k ++ if rule.isBreak text (rule.reach k) then [rule.reach k] else [] := by
  have hreach : rule.reach (k + 1) = rule.reach k + 1 := by cases rule <;> rfl
  rw [breaks, hreach, List.range_succ, List.filter_append]
  congr 1
  by_cases h : rule.isBreak text (rule.reach k) = true <;> simp [h]

theorem lt_reach_of_mem_breaks {rule : NewlineRule} {text : List Char} {j k : Nat}
    (h : j ∈ rule.breaks text k) : j < rule.reach k := by
  simpa using (List.mem_filter.mp h).1

theorem breaks_zero (rule : NewlineRule) (text : List Char) : rule.breaks text 0 = [] := by
  cases rule <;> rfl

theorem line_succ (rule : NewlineRule) (text : List Char) (k : Nat) :
    rule.line text (k + 1) =
      if rule.isBreak text (rule.reach k) then rule.line text k + 1 else rule.line text k := by
  rw [line, breaks_succ]
  split <;> simp [line, Nat.add_assoc]

theorem column_succ (rule : NewlineRule) (text : List Char) (k : Nat) :
    rule.column text (k + 1) =
      if rule.isBreak text (rule.reach k) then 1 else rule.column text k + 1 := by
  have hreach : rule.reach (k + 1) = rule.reach k + 1 := by cases rule <;> rfl
  by_cases h : rule.isBreak text (rule.reach k) = true
  · have hmax : (rule.breaks text (k + 1)).max? = some (rule.reach k) := by
      rw [List.max?_eq_some_iff, breaks_succ, if_pos h]
      refine ⟨by simp, ?_⟩
      intro j hj
      rcases List.mem_append.mp hj with hj | hj
      · exact Nat.le_of_lt (lt_reach_of_mem_breaks hj)
      · exact Nat.le_of_eq (List.mem_singleton.mp hj)
    simp only [column, hmax, if_pos h, hreach, Nat.add_sub_cancel_left]
  · have hsame : rule.breaks text (k + 1) = rule.breaks text k := by
      rw [breaks_succ, if_neg h, List.append_nil]
    simp only [column, hsame, if_neg h]
    split
    · next m hm =>
      have hlt := lt_reach_of_mem_breaks (List.max?_mem hm)
      omega
    · rfl

/-- The breaks that count before the end of a front do not depend on what follows it. -/
theorem breaks_append (rule : NewlineRule) {front : List Char} {k : Nat}
    (hk : k < front.length) (back : List Char) :
    rule.breaks (front ++ back) k = rule.breaks front k := by
  apply List.filter_congr
  intro j hj
  have hlt : j < front.length := by
    have hreach := List.mem_range.mp hj
    cases rule <;> simp only [reach] at hreach <;> omega
  cases rule <;> simp only [isBreak, List.getElem?_append_left hlt]

theorem isBreak_drop (rule : NewlineRule) (text : List Char) (n k : Nat) :
    rule.isBreak text (rule.reach (n + k)) = rule.isBreak (text.drop n) (rule.reach k) := by
  cases rule with
  | whenPassed => simp [isBreak, reach]
  | whenNext =>
    have hn : 1 ≤ n + (k + 1) := by omega
    simp [isBreak, reach, Nat.add_assoc, hn]

theorem line_pos (rule : NewlineRule) (text : List Char) (k : Nat) : 0 < rule.line text k := by
  rw [line]
  omega

theorem column_pos (rule : NewlineRule) (text : List Char) (k : Nat) :
    0 < rule.column text k := by
  cases k with
  | zero => simp [column, breaks_zero]
  | succ k =>
    rw [column_succ]
    split
    · exact Nat.zero_lt_one
    · exact Nat.succ_pos _

theorem line_add (rule : NewlineRule) (text : List Char) (n k : Nat) :
    rule.line text (n + k) = rule.line text n + rule.line (text.drop n) k - 1 := by
  induction k with
  | zero => simp [line, breaks_zero]
  | succ k ih =>
    have hpos := rule.line_pos (text.drop n) k
    rw [← Nat.add_assoc, line_succ, line_succ, isBreak_drop, ih]
    split <;> omega

/-- Up to the first break of the rest, its columns go on with those in front of it. -/
theorem column_add (rule : NewlineRule) (text : List Char) (n k : Nat) :
    rule.column text (n + k) =
      if rule.line (text.drop n) k = 1 then
        rule.column text n + rule.column (text.drop n) k - 1
      else rule.column (text.drop n) k := by
  induction k with
  | zero => simp [line, column, breaks_zero]
  | succ k ih =>
    have hline := rule.line_pos (text.drop n) k
    have hcolumn := rule.column_pos (text.drop n) k
    rw [← Nat.add_assoc, column_succ, line_succ, column_succ, isBreak_drop, ih]
    by_cases hbreak : rule.isBreak (text.drop n) (rule.reach k) = true
    · simp only [if_pos hbreak]
      rw [if_neg (by omega)]
    · simp only [if_neg hbreak]
      split <;> omega

end NewlineRule

namespace TextReader

/-- The reader that stands behind the first `n` characters of a text. -/
def behind (rule : NewlineRule) (text : List Char) (n : Nat) : TextReader :=
  { newlines := rule
    unread := text.drop n
    offset := Utf8.size (text.take n)
    line := rule.line text n
    column := rule.column text n }

theorem start_eq_behind (rule : NewlineRule) (text : List Char) :
    start rule text = behind rule text 0 := by
  simp [start, behind, NewlineRule.line, NewlineRule.column, NewlineRule.breaks_zero]

theorem pass_behind {text : List Char} {n : Nat} {c : Char} (h : text[n]? = some c)
    (rule : NewlineRule) :
    (behind rule text n).pass c (text.drop (n + 1)) = behind rule text (n + 1) := by
  have hsize : Utf8.size (text.take (n + 1)) = Utf8.size (text.take n) + c.utf8Size := by
    rw [List.take_add_one, h, Utf8.size_append]
    simp
  cases rule with
  | whenPassed =>
    simp [pass, behind, hsize, NewlineRule.line_succ, NewlineRule.column_succ,
      NewlineRule.isBreak, NewlineRule.reach, h]
  | whenNext =>
    simp [pass, behind, hsize, NewlineRule.line_succ, NewlineRule.column_succ,
      NewlineRule.isBreak, NewlineRule.reach, List.head?_drop]

theorem moveFrom_behind {text : List Char} {n m : Nat} (h : n + m ≤ text.length) (passed : Nat)
    (rule : NewlineRule) :
    moveFrom passed m (behind rule text n) = (passed + m, behind rule text (n + m)) := by
  induction m generalizing passed n with
  | zero => rw [moveFrom_zero]; rfl
  | succ m ih =>
    have hn : n < text.length := by omega
    have hc : text[n]? = some text[n] := List.getElem?_eq_getElem hn
    have hunread : (behind rule text n).unread = text[n] :: text.drop (n + 1) :=
      List.drop_eq_getElem_cons hn
    rw [moveFrom_cons hunread, pass_behind hc, ih (by omega)]
    congr 1
    · omega
    · congr 1
      omega

theorem move_behind {text : List Char} {n m : Nat} (h : n + m ≤ text.length)
    (rule : NewlineRule) :
    (behind rule text n).move m = (m, behind rule text (n + m)) := by
  simpa [move] using moveFrom_behind h 0 rule

theorem passWhile_behind {text : List Char} {n : Nat} (h : n ≤ text.length) (rule : NewlineRule)
    (p : Char → Bool) :
    (behind rule text n).passWhile p =
      behind rule text (n + ((text.drop n).takeWhile p).length) := by
  have hle : ((text.drop n).takeWhile p).length ≤ text.length - n := by
    rw [← List.length_drop]
    exact (List.takeWhile_prefix p).length_le
  rw [passWhile]
  change (move _ (behind rule text n)).2 = _
  rw [show (behind rule text n).unread = text.drop n from rfl, move_behind (by omega)]

end TextReader
end PhpTokens
