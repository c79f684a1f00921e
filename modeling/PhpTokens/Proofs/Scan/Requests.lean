import PhpTokens.Proofs.SourceText
import PhpTokens.Proofs.Scan.Run

/-! Requests for tokens, one after another and without an end. Request by request the scanner goes
through the cuts of its text; then it delivers the ending again and again. -/

namespace PhpTokens.Scanner

/-- The scanner after `i` requests for a token. -/
def after : Nat → Scanner → Scanner
  | 0, s => s
  | i + 1, s => after i s.next.scanner

/-- What a request delivers that `i` others have preceded. -/
def result (i : Nat) (s : Scanner) : Except ScanError Token := (s.after i).next.outcome

theorem result_succ (i : Nat) (s : Scanner) : s.result (i + 1) = s.next.scanner.result i := rfl

/-- The first error is delivered for ever. -/
theorem result_of_failure {s : Scanner} {error : ScanError} (h : s.failure = some error)
    (i : Nat) : s.result i = .error error := by
  have hnext := next_of_failure h
  induction i with
  | zero => exact congrArg Step.outcome hnext
  | succ i ih => rw [result_succ, hnext, ih]

/-- Once there is nothing left, the end of the text is delivered for ever. -/
theorem result_complete {text : List Char} {n : Nat} (h : Blanks text n text.length)
    (rules : Rules) (i : Nat) : (behind rules text n).result i = .ok (endOf rules text) := by
  have hnext := next_complete h rules
  induction i generalizing n with
  | zero => exact congrArg Step.outcome hnext
  | succ i ih =>
    have hdone := Blanks.refl (Nat.le_refl text.length)
    rw [result_succ, hnext]
    exact ih hdone (next_complete hdone rules)

/-- The results are the tokens of the cuts, and then the ending. -/
theorem result_of_cutting {rules : Rules} {text : List Char} {n : Nat} {cuts : List Cut}
    {ending : Ending} (h : Cutting rules text n cuts ending) (i : Nat) :
    (behind rules text n).result i =
      (cuts[i]?).elim (ending.outcome rules text) fun c => .ok (c.token rules text) := by
  induction h generalizing i with
  | complete hblank => exact result_complete hblank rules i
  | broken hlead hread =>
    have hnext := next_broken hlead hread
    cases i with
    | zero => exact congrArg Step.outcome hnext
    | succ i =>
      rw [result_succ, hnext]
      exact result_of_failure rfl i
  | cut hlead hread _ ih =>
    have hnext := next_cut hlead hread
    cases i with
    | zero => exact congrArg Step.outcome hnext
    | succ i =>
      rw [result_succ, hnext]
      exact ih i

/-- A request that delivers a token in front of the end delivers a cut. -/
theorem exists_cut_of_result {rules : Rules} {text : List Char} {n i : Nat}
    {cuts : List Cut} {ending : Ending} (h : Cutting rules text n cuts ending) {token : Token}
    (hresult : (behind rules text n).result i = .ok token) (hkind : token.kind ≠ .endOfInput) :
    ∃ c, cuts[i]? = some c ∧ token = c.token rules text := by
  rw [result_of_cutting h] at hresult
  cases hcut : cuts[i]? with
  | some c =>
    rw [hcut] at hresult
    exact ⟨c, rfl, (Except.ok.inj hresult).symm⟩
  | none =>
    rw [hcut] at hresult
    cases ending with
    | complete =>
      cases hresult
      exact absurd rfl hkind
    | broken start fault => cases hresult

/-- As long as there is no error, the scanner is described by the characters it has passed. -/
theorem exists_after_eq_behind {rules : Rules} {text : List Char} {n i : Nat}
    (hn : n ≤ text.length) (h : ∀ j < i, ((behind rules text n).result j).isOk = true) :
    ∃ m, m ≤ text.length ∧ (behind rules text n).after i = behind rules text m := by
  induction i generalizing n with
  | zero => exact ⟨n, hn, rfl⟩
  | succ i ih =>
    have hrest : ∀ j < i, ((behind rules text n).next.scanner.result j).isOk = true :=
      fun j hj => h (j + 1) (Nat.succ_lt_succ hj)
    obtain ⟨cuts, ending, hcut⟩ := exists_cutting rules hn
    cases hcut with
    | complete hblank =>
      rw [next_complete hblank] at hrest
      rw [after, next_complete hblank]
      exact ih (Nat.le_refl _) hrest
    | broken hlead hread =>
      have hfirst := h 0 (Nat.zero_lt_succ i)
      rw [result, after, next_broken hlead hread] at hfirst
      cases hfirst
    | cut hlead hread _ =>
      rw [next_cut hlead hread] at hrest
      rw [after, next_cut hlead hread]
      exact ih (hlead.stop_le hread) hrest

/-- The reader has come to an index of the text. -/
def Within (text : List Char) (s : Scanner) : Prop :=
  ∃ n ≤ text.length, s.reader = .behind s.rules.newlines text n

theorem within_start (rules : Rules) (text : String) : (start rules text).Within text.toList :=
  ⟨0, Nat.zero_le _, TextReader.start_eq_behind rules.newlines text.toList⟩

/-- Where the text is unread that begins at the byte reached. -/
theorem Within.dropBytes?_eq {text : List Char} {s : Scanner} (h : s.Within text) :
    SourceText.dropBytes? s.reader.offset text = some s.reader.unread := by
  obtain ⟨n, hn, hreader⟩ := h
  rw [hreader]
  exact SourceText.dropBytes?_eq_some_iff.mpr ⟨n, hn, rfl, rfl⟩

theorem exists_token_of_not_last {s : Scanner} (h : s.next.isLast = false) :
    ∃ token, s.next.outcome = .ok token ∧ token.kind ≠ .endOfInput := by
  cases hitem : s.next.outcome with
  | error error => simp [Step.isLast, hitem] at h
  | ok token => exact ⟨token, rfl, by simpa [Step.isLast, hitem] using h⟩

theorem drain_of_last {s : Scanner} (h : s.next.isLast = true) :
    s.drain.outcome = s.next.outcome.map ([·]) ∧ s.drain.scanner = s.next.scanner := by
  rw [drain, steps_of_last h]
  refine ⟨?_, rfl⟩
  simp only [List.mapM_cons, List.mapM_nil]
  cases s.next.outcome <;> rfl

theorem drain_of_token {s : Scanner} {token : Token} (htoken : s.next.outcome = .ok token)
    (h : s.next.isLast = false) :
    s.drain.outcome = s.next.scanner.drain.outcome.map (token :: ·) ∧
      s.drain.scanner = s.next.scanner.drain.scanner := by
  rw [drain, steps_of_not_last h]
  constructor
  · simp only [List.mapM_cons, htoken]
    rfl
  · simp only [drain, List.getLast?_cons]
    cases s.next.scanner.steps.getLast? <;> rfl

end PhpTokens.Scanner
