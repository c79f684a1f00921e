import PhpTokens.Proofs.Guarded.ByteReading
import PhpTokens.Proofs.Scan.MixedRequests

/-! A scanner that checks everything that could go wrong. It reads with a byte reader, counts what
it passes in words, cuts the text of each token out of the source, and insists that every token
moves it forward. For a text of less than half the range of words it answers any requests as the
plain scanner does, and nothing goes wrong. -/

namespace PhpTokens

open Guarded (part maxSize)

structure ByteScanner where
  rules : Rules
  reader : ByteReader
  failure : Option ScanError := none
  isExhausted : Bool := false
  deriving DecidableEq, Repr

namespace ByteScanner

/-- The scanner before the first character of a text. -/
def start (rules : Rules) (text : String) : ByteScanner :=
  { rules, reader := { newlines := rules.newlines, text := text.toList } }

/-- Delivers what was found behind the blanks, from the reader that stands there. -/
def deliver (s : ByteScanner) (k : ByteReader) :
    Reading → Except Trap (Except ScanError Token × ByteScanner)
  | .nothing => do
    let token : Token :=
      { kind := .endOfInput
        text := ""
        place := ⟨k.line, k.column, 1⟩
        extent := ⟨k.offset, k.offset⟩ }
    return (.ok token, { s with reader := k })
  | .fault fault after => do
    let error : ScanError := ⟨fault, k.line, k.column⟩
    return (.error error, { s with reader := after, failure := some error })
  | .piece kind length after => do
    if after.offset ≤ k.offset then throw .standstill
    let text ← part ⟨k.offset, after.offset⟩ k.text
    let token : Token :=
      { kind
        text := String.ofList text
        place := match s.rules.anchor with
          | .start => ⟨k.line, k.column, length⟩
          | .finish => ⟨after.line, after.column, length⟩
        extent := ⟨k.offset, after.offset⟩ }
    return (.ok token, { s with reader := after })

/-- The next token, or the error that ended the scan. -/
def next (s : ByteScanner) : Except Trap (Except ScanError Token × ByteScanner) := do
  match s.failure with
  | some error => return (.error error, s)
  | none =>
    let (_, k) ← s.reader.passWhile CharClass.isBlank
    s.deliver k (← k.read s.rules)

/-- All tokens that are left, behind those of `done`. -/
def drainFrom (done : List Token) :
    Nat → ByteScanner → Except Trap (Except ScanError (List Token) × ByteScanner)
  | 0, _ => .error .endless
  | rounds + 1, s => do
    match ← s.next with
    | (.error error, s) => return (.error error, s)
    | (.ok token, s) =>
      if token.kind = .endOfInput then return (.ok (done ++ [token]), s)
      else drainFrom (done ++ [token]) rounds s

/-- Answers one request. -/
def answer (s : ByteScanner) : Request → Except Trap (Answer × ByteScanner)
  | .token => do
    let (outcome, s) ← s.next
    return (.token outcome, s)
  | .item => do
    if s.isExhausted then return (.item none, s)
    let (outcome, s) ← s.next
    return (.item (some outcome), { s with isExhausted := isLast outcome })
  | .rest => do
    let (outcome, s) ← drainFrom [] (s.reader.text.length + 1) s
    return (.rest outcome, s)

/-- Answers requests in turn. -/
def serve (s : ByteScanner) : List Request → Except Trap (List Answer × ByteScanner)
  | [] => return ([], s)
  | request :: requests => do
    let (answer, next) ← s.answer request
    let (answers, last) ← next.serve requests
    return (answer :: answers, last)

/-- The scanner that checks everything, where a plain scanner of the text stands. -/
def of (text : List Char) (s : Scanner) : ByteScanner :=
  { rules := s.rules
    reader := ⟨s.rules.newlines, text, s.reader.offset, s.reader.line, s.reader.column⟩
    failure := s.failure
    isExhausted := s.isExhausted }

theorem next_of_failure {s : ByteScanner} {error : ScanError} (h : s.failure = some error) :
    s.next = .ok (.error error, s) := by
  rw [next, h]
  rfl

theorem next_of_read {s : ByteScanner} {count : Nat} {k : ByteReader} {reading : Reading}
    (sound : s.failure = none) (blank : s.reader.passWhile CharClass.isBlank = .ok (count, k))
    (reads : k.read s.rules = .ok reading) : s.next = s.deliver k reading := by
  simp only [next, sound, blank, reads, bind, Except.bind]

section Sized

variable {text : List Char} (hsize : Utf8.size text ≤ maxSize) {rules : Rules} {n s : Nat}
  (isOver : Bool)
include hsize

/-- The blanks in front of a place are passed, and what is read there is delivered. -/
theorem next_behind (hn : n ≤ text.length) (hs : solidFrom text n = s) {reading : Reading}
    (reads : (ByteReader.behind rules.newlines text s).read rules = .ok reading) :
    (of text ((Scanner.behind rules text n).iterated isOver)).next =
      (of text ((Scanner.behind rules text n).iterated isOver)).deliver
        (.behind rules.newlines text s) reading := by
  have hpass := ByteReader.passWhile_behind hsize rules.newlines CharClass.isBlank hn
  rw [← solidFrom, hs] at hpass
  exact next_of_read rfl hpass reads

theorem next_complete (h : Blanks text n text.length) :
    (of text ((Scanner.behind rules text n).iterated isOver)).next =
      .ok ((Ending.complete.step rules text).outcome,
        of text ((Ending.complete.step rules text).scanner.iterated isOver)) := by
  have hend : Utf8.size (text.take text.length) = Utf8.size text := by rw [List.take_length]
  rw [next_behind hsize isOver h.le h.solidFrom_eq (ByteReader.read_at_end rules.newlines rules),
    Ending.step, endOf, ← hend]
  rfl

theorem next_broken {c : Char} {fault : Fault} (h : Lead text n s c)
    (hread : Lexeme.read rules c (text.drop (s + 1)) = .error fault) :
    (of text ((Scanner.behind rules text n).iterated isOver)).next =
      .ok (((Ending.broken s fault).step rules text).outcome,
        of text (((Ending.broken s fault).step rules text).scanner.iterated isOver)) := by
  have hfault := ByteReader.read_behind hsize rules.newlines rules h.here
  rw [hread] at hfault
  rw [next_behind hsize isOver (Nat.le_trans h.blanks.le h.blanks.stop_le) h.solidFrom_eq hfault]
  rfl

theorem next_cut {c : Char} {piece : Lexeme} (h : Lead text n s c)
    (hread : Lexeme.read rules c (text.drop (s + 1)) = .ok piece) :
    (of text ((Scanner.behind rules text n).iterated isOver)).next =
      .ok ((Cut.step rules text ⟨s, piece⟩).outcome,
        of text ((Cut.step rules text ⟨s, piece⟩).scanner.iterated isOver)) := by
  have hpiece := ByteReader.read_behind hsize rules.newlines rules h.here
  rw [hread] at hpiece
  have hpart := ByteReader.part_behind rules.newlines (h.stop_le hread)
  have hmoves : ¬ (ByteReader.behind rules.newlines text (s + piece.length)).offset ≤
      (ByteReader.behind rules.newlines text s).offset :=
    Nat.not_le.mpr (Utf8.size_take_lt (Nat.lt_add_of_pos_right (Lexeme.read_pos hread))
      (h.stop_le hread))
  rw [next_behind hsize isOver (Nat.le_trans h.blanks.le h.blanks.stop_le) h.solidFrom_eq hpiece]
  simp only [Reading.behind, deliver, if_neg hmoves, hpart, bind, Except.bind]
  rcases rules with ⟨_, _, anchor, _⟩
  cases anchor <;> rfl

end Sized

section Agreement

variable {text : List Char} (hsize : Utf8.size text ≤ maxSize) {s : Scanner}
include hsize

/-- A request for a token is answered alike. -/
theorem next_of (h : s.Within text) :
    (of text s).next = .ok (s.next.outcome, of text s.next.scanner) := by
  cases hfailure : s.failure with
  | some error =>
    rw [Scanner.next_of_failure hfailure]
    exact next_of_failure hfailure
  | none =>
    obtain ⟨n, hn, hreader⟩ := h
    -- the mark for iterations is no part of `behind`, and makes no difference to the request
    have hs : s = (Scanner.behind s.rules text n).iterated s.isExhausted := by
      rw [Scanner.behind, ← hreader]
      cases s
      cases hfailure
      rfl
    obtain ⟨cuts, ending, hcut⟩ := exists_cutting s.rules hn
    generalize s.rules = rules, s.isExhausted = isOver at hs hcut
    rw [hs, Scanner.next_iterated]
    cases hcut with
    | complete hblank =>
      rw [next_complete hsize isOver hblank, Scanner.next_complete hblank]
    | broken hlead hread =>
      rw [next_broken hsize isOver hlead hread, Scanner.next_broken hlead hread]
    | cut hlead hread _ => rw [next_cut hsize isOver hlead hread, Scanner.next_cut hlead hread]

/-- Rounds enough for what is unread are enough to deliver all tokens that are left. -/
theorem drainFrom_of (h : s.Within text) (done : List Token) {rounds : Nat}
    (hrounds : s.reader.unread.length < rounds) :
    drainFrom done rounds (of text s) =
      .ok (s.drain.outcome.map (done ++ ·), of text s.drain.scanner) := by
  induction rounds generalizing s done with
  | zero => exact absurd hrounds (Nat.not_lt_zero _)
  | succ rounds ih =>
    have hnext := next_of hsize h
    cases hlast : s.next.isLast with
    | true =>
      obtain ⟨houtcome, hscanner⟩ := Scanner.drain_of_last hlast
      rw [houtcome, hscanner, drainFrom, hnext]
      cases hitem : s.next.outcome with
      | error error => rfl
      | ok token =>
        rw [Step.isLast, hitem] at hlast
        simp only [bind, Except.bind, if_pos (eq_of_beq hlast)]
        rfl
    | false =>
      obtain ⟨token, hitem, hkind⟩ := Scanner.exists_token_of_not_last hlast
      obtain ⟨houtcome, hscanner⟩ := Scanner.drain_of_token hitem hlast
      have hless := s.next_unread_lt hlast
      have hrest := ih h.next (done ++ [token]) (by omega)
      rw [houtcome, hscanner, drainFrom, hnext, hitem]
      simp only [bind, Except.bind, if_neg hkind, hrest]
      cases s.next.scanner.drain.outcome with
      | error error => rfl
      | ok tokens =>
        simp only [Except.map, List.append_assoc, List.singleton_append]

/-- A request of any sort is answered alike. -/
theorem answer_of (h : s.Within text) (request : Request) :
    (of text s).answer request = .ok ((s.answer request).1, of text (s.answer request).2) := by
  have hnext := next_of hsize h
  cases request with
  | token =>
    rw [answer, hnext]
    rfl
  | item =>
    cases hover : s.isExhausted with
    | true =>
      have hsame : s.answer .item = (.item none, s) := by
        rw [Scanner.answer, Scanner.item?, if_pos hover]
      have hdone : (of text s).isExhausted = true := hover
      rw [hsame, answer, if_pos hdone]
      rfl
    | false =>
      have hitem : s.answer .item =
          (.item (some s.next.outcome), s.next.scanner.iterated s.next.isLast) := by
        rw [Scanner.answer, Scanner.item?, if_neg (by rw [hover]; decide)]
        rfl
      have hnotDone : ¬ (of text s).isExhausted = true := by
        rw [show (of text s).isExhausted = false from hover]
        decide
      rw [hitem, answer, if_neg hnotDone, hnext]
      rfl
  | rest =>
    obtain ⟨n, hn, hreader⟩ := id h
    have hunread : s.reader.unread.length < text.length + 1 := by
      rw [hreader]
      exact Nat.lt_succ_of_le (List.drop_suffix n text).length_le
    have hrest := drainFrom_of hsize h [] hunread
    have hdrain : s.drain.outcome.map ([] ++ ·) = s.drain.outcome := by
      cases s.drain.outcome <;> rfl
    rw [hdrain] at hrest
    change drainFrom [] ((of text s).reader.text.length + 1) (of text s) = _ at hrest
    rw [answer, hrest]
    rfl

/-- Requests are answered alike. -/
theorem serve_of (h : s.Within text) (requests : List Request) :
    (of text s).serve requests = .ok ((s.serve requests).1, of text (s.serve requests).2) ∧
      (s.serve requests).2.Within text := by
  refine ⟨?_, h.serve requests⟩
  induction requests generalizing s with
  | nil => rfl
  | cons request requests ih =>
    rw [serve, answer_of hsize h request]
    simp only [bind, Except.bind, ih (h.answer request)]
    rfl

end Agreement

end ByteScanner

/-- Nothing goes wrong in a scan. Whatever a scanner of a text of at most `maxSize` bytes is asked
for, in whatever order, no sum or difference leaves the words, every part that is taken of the text
begins and ends at edges of characters in order, every movement by bytes ends at such an edge, every
token takes some of the text, and every loop ends. The answers are those of the scanner that checks
nothing, and the place reached is the edge of a character. -/
theorem guarded_requests_served (rules : Rules) (text : String)
    (hsize : Utf8.size text.toList ≤ maxSize) (requests : List Request) :
    (ByteScanner.start rules text).serve requests =
        .ok (((Scanner.start rules text).serve requests).1,
          .of text.toList ((Scanner.start rules text).serve requests).2) ∧
      ∃ n ≤ text.toList.length,
        ((Scanner.start rules text).serve requests).2.reader.offset =
          Utf8.size (text.toList.take n) := by
  obtain ⟨hserve, n, hn, hreader⟩ :=
    ByteScanner.serve_of hsize (Scanner.within_start rules text) requests
  exact ⟨hserve, n, hn, by rw [hreader]; rfl⟩

theorem guarded_requests_served_mixed :
    Utf8.size "é \"ü\n\" #x".toList ≤ maxSize ∧
      (ByteScanner.start .legacy "é \"ü\n\" #x").serve [.item, .token, .rest, .item] =
        .ok (((Scanner.start .legacy "é \"ü\n\" #x").serve [.item, .token, .rest, .item]).1,
          .of "é \"ü\n\" #x".toList
            ((Scanner.start .legacy "é \"ü\n\" #x").serve [.item, .token, .rest, .item]).2) ∧
      ∃ n ≤ "é \"ü\n\" #x".toList.length,
        ((Scanner.start .legacy "é \"ü\n\" #x").serve
          [.item, .token, .rest, .item]).2.reader.offset =
            Utf8.size ("é \"ü\n\" #x".toList.take n) :=
  ⟨by decide, guarded_requests_served .legacy "é \"ü\n\" #x" (by decide) _⟩

end PhpTokens
