import PhpTokens.Proofs.Text.Movements

/-! Loops over a text, round by round. A loop looks at the next character, passes it if it satisfies
a condition, and goes on; a round that passes nothing would be repeated for ever. Every loop stops,
at the latest at the end of the text, and leads to where `passWhile` does. -/

namespace PhpTokens.TextReader

/-- The loop that passes one character in each round, as long as there is one that satisfies `p`.
From a reader it stops after this many rounds, with the number of characters that the rounds have
passed and the reader behind them. -/
inductive Loop (p : Char → Bool) : TextReader → Nat → Nat × TextReader → Prop where
  | stop {k : TextReader} (stops : k.here?.any p = false) : Loop p k 0 (0, k)
  | round {k last : TextReader} {rounds passed : Nat} (goesOn : k.here?.any p = true)
      (rest : Loop p (k.move 1).2 rounds (passed, last)) :
      Loop p k (rounds + 1) ((k.move 1).1 + passed, last)

variable {p : Char → Bool}

/-- A loop can take only one course. -/
theorem Loop.unique {k : TextReader} {rounds rounds' : Nat} {result result' : Nat × TextReader}
    (h : Loop p k rounds result) (h' : Loop p k rounds' result') :
    rounds = rounds' ∧ result = result' := by
  induction h generalizing rounds' result' with
  | stop stops =>
    cases h' with
    | stop _ => exact ⟨rfl, rfl⟩
    | round goesOn _ => cases stops.symm.trans goesOn
  | round goesOn _ ih =>
    cases h' with
    | stop stops => cases stops.symm.trans goesOn
    | round _ rest =>
      obtain ⟨rfl, hresult⟩ := ih rest
      cases hresult
      exact ⟨rfl, rfl⟩

/-- A loop has a round for each character that it passes, and stops where `passWhile` does. -/
theorem loop_passWhile (p : Char → Bool) (k : TextReader) :
    Loop p k (k.unread.takeWhile p).length ((k.unread.takeWhile p).length, k.passWhile p) := by
  induction hunread : k.unread generalizing k with
  | nil =>
    have hstay : k.passWhile p = k := by
      rw [passWhile, move_nil hunread]
    rw [hstay]
    exact .stop (by rw [here?, hunread]; rfl)
  | cons c rest ih =>
    by_cases hc : p c = true
    · have hahead : k.passWhile p = (k.pass c rest).passWhile p := by
        rw [passWhile, hunread, List.takeWhile_cons_of_pos hc, List.length_cons,
          move_cons hunread]
        rfl
      have hgoesOn : k.here?.any p = true := by
        rw [here?, hunread]
        exact hc
      have hrest : Loop p (k.move 1).2 (rest.takeWhile p).length
          ((rest.takeWhile p).length, (k.pass c rest).passWhile p) := by
        rw [move_one hunread]
        exact ih (k.pass c rest) rfl
      have hround := Loop.round hgoesOn hrest
      rw [move_one hunread, Nat.add_comm 1] at hround
      rw [List.takeWhile_cons_of_pos hc, List.length_cons, hahead]
      exact hround
    · have hstay : k.passWhile p = k := by
        rw [passWhile, hunread, List.takeWhile_cons_of_neg hc, List.length_nil, move_zero]
      rw [List.takeWhile_cons_of_neg hc, hstay]
      exact .stop (by rw [here?, hunread]; simpa using hc)

theorem loop_iff {k : TextReader} {rounds : Nat} {result : Nat × TextReader} :
    Loop p k rounds result ↔
      rounds = (k.unread.takeWhile p).length ∧
        result = ((k.unread.takeWhile p).length, k.passWhile p) := by
  constructor
  · intro h
    exact h.unique (loop_passWhile p k)
  · rintro ⟨rfl, rfl⟩
    exact loop_passWhile p k

/-- Every round passes one character. -/
theorem move_of_round {k : TextReader} (h : k.here?.any p = true) :
    (k.move 1).1 = 1 ∧ (k.move 1).2.unread.length + 1 = k.unread.length := by
  cases hunread : k.unread with
  | nil =>
    rw [here?, hunread] at h
    cases h
  | cons c rest =>
    rw [move_one hunread]
    exact ⟨rfl, rfl⟩

end PhpTokens.TextReader
