import PhpTokens.Proofs.Scan.MixedRequests
import PhpTokens.Proofs.Text.Rounds

/-! Why a scan ends. Every token in front of the end of the text takes characters from what is
unread: the blanks that were skipped and the characters of its piece, of which there is at least
one. So what is unread bounds the number of requests that a loop over all tokens makes, and the
loops inside a request are bounded by it too. -/

namespace PhpTokens

namespace Scanner

/-- The loop that requests tokens up to the end of the text or the first error, and collects them.
From a scanner it stops after this many requests, with its outcome and the scanner behind them. -/
inductive Drains : Scanner → Nat → Except ScanError (List Token) → Scanner → Prop where
  | failed {s : Scanner} {error : ScanError} (fails : s.next.outcome = .error error) :
      Drains s 1 (.error error) s.next.scanner
  | ended {s : Scanner} {token : Token} (delivers : s.next.outcome = .ok token)
      (ends : token.kind = .endOfInput) : Drains s 1 (.ok [token]) s.next.scanner
  | more {s last : Scanner} {token : Token} {calls : Nat}
      {outcome : Except ScanError (List Token)} (delivers : s.next.outcome = .ok token)
      (goesOn : token.kind ≠ .endOfInput) (rest : Drains s.next.scanner calls outcome last) :
      Drains s (calls + 1) (outcome.map (token :: ·)) last

/-- The loop can take only one course. -/
theorem Drains.unique {s last last' : Scanner} {calls calls' : Nat}
    {outcome outcome' : Except ScanError (List Token)} (h : s.Drains calls outcome last)
    (h' : s.Drains calls' outcome' last') :
    calls' = calls ∧ outcome' = outcome ∧ last' = last := by
  induction h generalizing calls' outcome' last' with
  | failed fails =>
    cases h' with
    | failed fails' =>
      cases fails.symm.trans fails'
      exact ⟨rfl, rfl, rfl⟩
    | ended delivers _ | more delivers _ _ => cases fails.symm.trans delivers
  | ended delivers ends =>
    cases h' with
    | failed fails => cases delivers.symm.trans fails
    | ended delivers' _ =>
      cases delivers.symm.trans delivers'
      exact ⟨rfl, rfl, rfl⟩
    | more delivers' goesOn _ =>
      cases delivers.symm.trans delivers'
      exact absurd ends goesOn
  | more delivers goesOn _ ih =>
    cases h' with
    | failed fails => cases delivers.symm.trans fails
    | ended delivers' ends =>
      cases delivers.symm.trans delivers'
      exact absurd ends goesOn
    | more delivers' _ rest =>
      cases delivers.symm.trans delivers'
      obtain ⟨rfl, rfl, rfl⟩ := ih rest
      exact ⟨rfl, rfl, rfl⟩

/-- The loop stops, and it collects what a request for all tokens delivers. -/
theorem exists_drains (s : Scanner) :
    ∃ calls ≤ s.reader.unread.length + 1,
      s.Drains calls s.drain.outcome s.drain.scanner := by
  -- on what is unread: a step that is not the last one leaves less of it
  induction hk : s.reader.unread.length using Nat.strongRecOn generalizing s with
  | ind k ih =>
    cases hlast : s.next.isLast with
    | true =>
      obtain ⟨houtcome, hscanner⟩ := drain_of_last hlast
      refine ⟨1, Nat.le_add_left 1 k, ?_⟩
      rw [houtcome, hscanner]
      cases hitem : s.next.outcome with
      | error error => exact .failed hitem
      | ok token =>
        rw [Step.isLast, hitem] at hlast
        exact .ended hitem (eq_of_beq hlast)
    | false =>
      have hless := s.next_unread_lt hlast
      obtain ⟨calls, hcalls, hrest⟩ := ih _ (hk ▸ hless) s.next.scanner rfl
      obtain ⟨token, hitem, hkind⟩ := exists_token_of_not_last hlast
      obtain ⟨houtcome, hscanner⟩ := drain_of_token hitem hlast
      refine ⟨calls + 1, by omega, ?_⟩
      rw [houtcome, hscanner]
      exact .more hitem hkind hrest

theorem tokenBetween_length (anchor : Anchor) (kind : Kind) (before after : TextReader)
    (length : Nat) : (tokenBetween anchor kind before length after).place.length = length := by
  cases anchor <;> rfl

/-- A token in front of the end of the text takes the blanks before it and its own characters. -/
theorem unread_of_token {s : Scanner} {token : Token} (h : s.next.outcome = .ok token)
    (hkind : token.kind ≠ .endOfInput) :
    1 ≤ token.place.length ∧
      s.reader.unread.length = (s.reader.unread.takeWhile CharClass.isBlank).length +
        token.place.length + s.next.scanner.reader.unread.length := by
  cases s.finds with
  | failure failed =>
    rw [next_of_failure failed] at h
    cases h
  | nothing sound unread =>
    rw [next_at_end sound unread] at h
    cases h
    exact absurd rfl hkind
  | fault sound unread reads =>
    rw [next_of_fault sound unread reads] at h
    cases h
  | @piece c rest piece sound unread reads =>
    have hpos := Lexeme.read_pos reads
    have hle := Lexeme.read_le reads
    rw [next_of_piece sound unread reads] at h ⊢
    have hcount : ((s.reader.passWhile CharClass.isBlank).move piece.length).1 = piece.length := by
      rw [TextReader.move_count, unread, List.length_cons, Nat.min_eq_left hle]
    have hlength : token.place.length = piece.length := by
      rw [← Except.ok.inj h]
      exact (tokenBetween_length _ _ _ _ _).trans hcount
    have hsplit := congrArg List.length
      (List.takeWhile_append_dropWhile (p := CharClass.isBlank) (l := s.reader.unread))
    have hleft : (stepOfPiece s (s.reader.passWhile CharClass.isBlank) piece
        ).scanner.reader.unread.length = rest.length + 1 - piece.length := by
      simp [stepOfPiece, unread]
    rw [← TextReader.passWhile_unread, unread, List.length_append, List.length_cons] at hsplit
    rw [hlength, hleft]
    exact ⟨hpos, by omega⟩

/-- What a scanner of a text does before it stops. -/
structure Proceeds (text : List Char) (s : Scanner) : Prop where
  /-- What is unread is the text behind the bytes passed. -/
  unread_eq : SourceText.dropBytes? s.reader.offset text = some s.reader.unread
  /-- The loop over all tokens stops in time, and all tokens are delivered. -/
  drains : ∃ calls ≤ s.reader.unread.length + 1, ∀ calls' outcome last,
    s.Drains calls' outcome last ↔
      calls' = calls ∧ outcome = s.drain.outcome ∧ last = s.drain.scanner
  /-- One request takes the blanks skipped and the characters that its token reports. -/
  takes : ∀ token, s.next.outcome = .ok token → token.kind ≠ .endOfInput →
    1 ≤ token.place.length ∧
      s.reader.unread.length = (s.reader.unread.takeWhile CharClass.isBlank).length +
        token.place.length + s.next.scanner.reader.unread.length

theorem Within.proceeds {text : List Char} {s : Scanner} (h : s.Within text) :
    s.Proceeds text := by
  obtain ⟨calls, hcalls, hdrains⟩ := s.exists_drains
  refine ⟨h.dropBytes?_eq, ⟨calls, hcalls, fun calls' outcome last => ?_⟩,
    fun token => unread_of_token⟩
  constructor
  · intro hcourse
    exact hdrains.unique hcourse
  · rintro ⟨rfl, rfl, rfl⟩
    exact hdrains

end Scanner

/-- Scanning ends on every text, under all rules and after any requests. All tokens that are left
are delivered after at most one request for each unread character and one more, because a token in
front of the end of the text takes at least one; and every loop over characters stops after as many
rounds as it passes characters, one in each round, at the latest at the end of the text. -/
theorem scan_ends_within_text (rules : Rules) (text : String) (requests : List Request) :
    ((Scanner.start rules text).serve requests).2.Proceeds text.toList ∧
      ∀ (p : Char → Bool) (k : TextReader),
        (k.here?.any p = true →
          (k.move 1).1 = 1 ∧ (k.move 1).2.unread.length + 1 = k.unread.length) ∧
        ∃ rounds ≤ k.unread.length, ∀ rounds' result,
          TextReader.Loop p k rounds' result ↔
            rounds' = rounds ∧ result = (rounds, k.passWhile p) := by
  constructor
  · exact ((Scanner.within_start rules text).serve requests).proceeds
  · intro p k
    refine ⟨TextReader.move_of_round, _, (List.takeWhile_prefix p).length_le, ?_⟩
    intro rounds result
    exact TextReader.loop_iff

end PhpTokens
