import PhpTokens.Proofs.Scan.Requests
import PhpTokens.Proofs.Text.Movements

/-! Requests of all sorts, mixed. A scanner may be asked for the next token, for the next item of an
iteration or for all tokens that are left, in any order. The answers share one stream of results,
that of requests for a token alone: each continues where the one before it stopped, the last result
is delivered again and again, and only iterations know that they are over. Whatever is asked for,
the reader stays within its text. -/

namespace PhpTokens

/-- What a scanner can be asked for. -/
inductive Request where
  | token
  /-- The next item of an iteration. -/
  | item
  /-- All tokens that are left. -/
  | rest
  deriving DecidableEq, Repr

inductive Answer where
  | token (outcome : Except ScanError Token)
  /-- An iteration that is over has no item. -/
  | item (outcome? : Option (Except ScanError Token))
  | rest (outcome : Except ScanError (List Token))
  deriving DecidableEq

/-- A result is the end of the text or an error. -/
def isLast : Except ScanError Token → Bool
  | .ok token => token.kind == .endOfInput
  | .error _ => true

/-- The answer is the last item of an iteration. -/
def Answer.endsIteration : Answer → Bool
  | .item (some outcome) => isLast outcome
  | _ => false

/-- The number of results taken from a stream whose last one has the index `m`, after one more
answer. A request for the rest takes the last result in any case, also if it has been taken. -/
def Answer.takenAfter (m taken : Nat) : Answer → Nat
  | .token _ | .item (some _) => taken + 1
  | .item none => taken
  | .rest _ => max taken m + 1

theorem Answer.le_takenAfter (m taken : Nat) (answer : Answer) :
    taken ≤ answer.takenAfter m taken := by
  rcases answer with _ | (_ | _) | _ <;> simp only [takenAfter] <;> omega

/-- The number of results taken after some more answers. -/
def taken (m i : Nat) (answers : List Answer) : Nat :=
  answers.foldl (fun i answer => answer.takenAfter m i) i

namespace TextReader

/-- What has been passed is not passed again. -/
theorem passWhile_passWhile (p : Char → Bool) (k : TextReader) :
    (k.passWhile p).passWhile p = k.passWhile p := by
  have hnone : (k.passWhile p).unread.takeWhile p = [] := by
    rw [passWhile_unread]
    cases hrest : k.unread.dropWhile p with
    | nil => rfl
    | cons c rest =>
      have hhead := List.head?_dropWhile_not p k.unread
      rw [hrest] at hhead
      exact List.takeWhile_cons_of_neg (by simpa using hhead)
  rw [passWhile, hnone, move, List.length_nil, moveFrom_zero]

theorem offset_le_moveFrom (passed n : Nat) (k : TextReader) :
    k.offset ≤ (moveFrom passed n k).2.offset := by
  induction n generalizing passed k with
  | zero => rw [moveFrom_zero]
  | succ n ih =>
    cases h : k.unread with
    | nil => rw [moveFrom_nil h]
    | cons c rest =>
      rw [moveFrom_cons h]
      exact Nat.le_trans (Nat.le_add_right k.offset c.utf8Size) (ih (passed + 1) (k.pass c rest))

theorem offset_le_passWhile (k : TextReader) (p : Char → Bool) :
    k.offset ≤ (k.passWhile p).offset := offset_le_moveFrom 0 _ k

end TextReader

namespace Scanner

/-- Answers one request. -/
def answer (s : Scanner) : Request → Answer × Scanner
  | .token => (.token s.next.outcome, s.next.scanner)
  | .item =>
    match s.item? with
    | none => (.item none, s)
    | some step => (.item (some step.outcome), step.scanner)
  | .rest => (.rest s.drain.outcome, s.drain.scanner)

/-- Answers requests in turn. -/
def serve (s : Scanner) : List Request → List Answer × Scanner
  | [] => ([], s)
  | request :: requests =>
    let (answer, next) := s.answer request
    let (answers, last) := next.serve requests
    (answer :: answers, last)

/-- The scanner with the mark that tells iterations whether they are over. -/
def iterated (isOver : Bool) (s : Scanner) : Scanner := { s with isExhausted := isOver }

/-- The last result of a scanner has the index `m`. -/
structure StopsAt (s : Scanner) (m : Nat) : Prop where
  before : ∀ j < m, isLast (s.result j) = false
  last : isLast (s.result m) = true

theorem after_add (s : Scanner) (i j : Nat) : s.after (i + j) = (s.after i).after j := by
  induction i generalizing s with
  | zero => rw [Nat.zero_add]; rfl
  | succ i ih =>
    rw [Nat.succ_add]
    exact ih s.next.scanner

theorem after_succ (s : Scanner) (i : Nat) : s.after (i + 1) = (s.after i).next.scanner :=
  s.after_add i 1

theorem result_add (s : Scanner) (i j : Nat) : (s.after i).result j = s.result (i + j) := by
  rw [result, result, after_add]

/-- What a request for a token finds. -/
inductive Finds (s : Scanner) : Prop where
  | failure {error : ScanError} (failed : s.failure = some error)
  | nothing (sound : s.failure = none)
      (unread : (s.reader.passWhile CharClass.isBlank).unread = [])
  | fault {c : Char} {rest : List Char} {fault : Fault} (sound : s.failure = none)
      (unread : (s.reader.passWhile CharClass.isBlank).unread = c :: rest)
      (reads : Lexeme.read s.rules c rest = .error fault)
  | piece {c : Char} {rest : List Char} {piece : Lexeme} (sound : s.failure = none)
      (unread : (s.reader.passWhile CharClass.isBlank).unread = c :: rest)
      (reads : Lexeme.read s.rules c rest = .ok piece)

theorem finds (s : Scanner) : s.Finds := by
  cases hfailure : s.failure with
  | some error => exact .failure hfailure
  | none =>
    cases hunread : (s.reader.passWhile CharClass.isBlank).unread with
    | nil => exact .nothing hfailure hunread
    | cons c rest =>
      cases hread : Lexeme.read s.rules c rest with
      | error fault => exact .fault hfailure hunread hread
      | ok piece => exact .piece hfailure hunread hread

/-- A scanner that has delivered its last result delivers it again and stays as it is. -/
theorem next_next {s : Scanner} (h : isLast s.next.outcome = true) :
    s.next.scanner.next = ⟨s.next.outcome, [], s.next.scanner⟩ := by
  cases s.finds with
  | failure failed =>
    have hnext := next_of_failure failed
    rw [hnext]
    exact hnext
  | nothing sound unread =>
    have hpass := s.reader.passWhile_passWhile CharClass.isBlank
    have hagain : ((s.reader.passWhile CharClass.isBlank).passWhile CharClass.isBlank).unread =
        [] := by rw [hpass, unread]
    rw [next_at_end sound unread,
      next_at_end (s := { s with reader := s.reader.passWhile CharClass.isBlank }) sound hagain]
    simp only [hpass]
  | fault sound unread reads =>
    rw [next_of_fault sound unread reads]
    exact next_of_failure rfl
  | piece sound unread reads =>
    rw [next_of_piece sound unread reads] at h
    exact absurd (eq_of_beq h) (Lexeme.kind_ne_endOfInput reads)

theorem exists_stopsAt (s : Scanner) : ∃ m, s.StopsAt m := by
  induction hk : s.reader.unread.length using Nat.strongRecOn generalizing s with
  | ind k ih =>
    cases hlast : isLast s.next.outcome with
    | true => exact ⟨0, fun _ hj => absurd hj (Nat.not_lt_zero _), hlast⟩
    | false =>
      obtain ⟨m, hbefore, hm⟩ := ih _ (hk ▸ s.next_unread_lt hlast) s.next.scanner rfl
      refine ⟨m + 1, fun j hj => ?_, hm⟩
      cases j with
      | zero => exact hlast
      | succ j => exact hbefore j (Nat.lt_of_succ_lt_succ hj)

section StopsAt

variable {s : Scanner} {m : Nat}

/-- Behind its last result a scanner stands still. -/
theorem StopsAt.after_eq (h : s.StopsAt m) {i : Nat} (hi : m < i) :
    s.after i = s.after (m + 1) := by
  induction i with
  | zero => exact absurd hi (Nat.not_lt_zero m)
  | succ i ih =>
    rcases Nat.lt_or_eq_of_le (Nat.le_of_lt_succ hi) with hlt | rfl
    · rw [after_succ, ih hlt, after_succ, next_next h.last]
    · rfl

/-- The last result is delivered for ever. -/
theorem StopsAt.result_eq (h : s.StopsAt m) {i : Nat} (hi : m ≤ i) :
    s.result i = s.result m := by
  rcases Nat.lt_or_eq_of_le hi with hlt | rfl
  · rw [result, h.after_eq hlt, after_succ, next_next h.last]
    rfl
  · rfl

theorem StopsAt.result_min (h : s.StopsAt m) (i : Nat) : s.result (min i m) = s.result i := by
  rcases Nat.le_total i m with hle | hle
  · rw [Nat.min_eq_left hle]
  · rw [Nat.min_eq_right hle, h.result_eq hle]

/-- A scanner that has been asked `i` times stops as many results earlier. -/
theorem StopsAt.of_after (h : s.StopsAt m) (i : Nat) : (s.after i).StopsAt (m - i) := by
  refine ⟨fun j hj => ?_, ?_⟩
  · rw [result_add]
    exact h.before _ (by omega)
  · rw [result_add, h.result_eq (by omega)]
    exact h.last

/-- The steps of a scan are those of requests for a token, up to the last result. -/
theorem StopsAt.steps_eq (h : s.StopsAt m) :
    s.steps = (List.range (m + 1)).map fun j => (s.after j).next := by
  induction m generalizing s with
  | zero => exact steps_of_last h.last
  | succ m ih =>
    have hrest : s.next.scanner.StopsAt m := h.of_after 1
    have hfirst : s.next.isLast = false := h.before 0 (Nat.zero_lt_succ m)
    rw [steps_of_not_last hfirst, ih hrest, List.range_succ_eq_map (n := m + 1), List.map_cons,
      List.map_map]
    rfl

theorem StopsAt.drain_scanner (h : s.StopsAt m) : s.drain.scanner = s.after (m + 1) := by
  rw [drain, h.steps_eq, List.range_succ, List.map_append, after_succ]
  simp

theorem StopsAt.drain_outcome (h : s.StopsAt m) :
    s.drain.outcome = (List.range (m + 1)).mapM s.result := by
  rw [drain, h.steps_eq, List.mapM_map]
  rfl

end StopsAt

/-- The mark for iterations makes no difference to a request for a token. -/
theorem next_iterated (isOver : Bool) (s : Scanner) :
    (s.iterated isOver).next = { s.next with scanner := s.next.scanner.iterated isOver } := by
  cases s.finds with
  | failure failed =>
    rw [next_of_failure failed, next_of_failure (s := s.iterated isOver) failed]
  | nothing sound unread =>
    rw [next_at_end sound unread, next_at_end (s := s.iterated isOver) sound unread]
    rfl
  | fault sound unread reads =>
    rw [next_of_fault sound unread reads, next_of_fault (s := s.iterated isOver) sound unread reads]
    rfl
  | piece sound unread reads =>
    rw [next_of_piece sound unread reads, next_of_piece (s := s.iterated isOver) sound unread reads]
    rfl

theorem after_iterated (isOver : Bool) (s : Scanner) (i : Nat) :
    (s.iterated isOver).after i = (s.after i).iterated isOver := by
  induction i generalizing s with
  | zero => rfl
  | succ i ih =>
    rw [after, next_iterated]
    exact ih s.next.scanner

theorem result_iterated (isOver : Bool) (s : Scanner) (i : Nat) :
    (s.iterated isOver).result i = s.result i := by
  rw [result, after_iterated, next_iterated]
  rfl

theorem StopsAt.iterated {s : Scanner} {m : Nat} (h : s.StopsAt m) (isOver : Bool) :
    (s.iterated isOver).StopsAt m := by
  refine ⟨fun j hj => ?_, ?_⟩
  · rw [result_iterated]
    exact h.before j hj
  · rw [result_iterated]
    exact h.last

/-- One answer takes as many results as it should, and iterations are told apart by the mark. -/
theorem answer_after {s : Scanner} {m : Nat} (h : s.StopsAt m) (i : Nat) (isOver : Bool)
    (request : Request) :
    (((s.after i).iterated isOver).answer request).2 =
      (s.after ((((s.after i).iterated isOver).answer request).1.takenAfter m i)).iterated
        (isOver || (((s.after i).iterated isOver).answer request).1.endsIteration) := by
  cases request with
  | token =>
    simp only [answer, next_iterated, Answer.takenAfter, Answer.endsIteration, Bool.or_false,
      after_succ]
  | item =>
    cases isOver with
    | true => rfl
    | false =>
      have hitem : ((s.after i).iterated false).item? =
          some { (s.after i).next with
            scanner := (s.after i).next.scanner.iterated (s.after i).next.isLast } := by
        simp only [item?, next_iterated]
        rfl
      simp only [answer, hitem, Answer.takenAfter, Answer.endsIteration, Bool.false_or, after_succ]
      rfl
  | rest =>
    have hstops := (h.of_after i).iterated isOver
    have hmax : i + (m - i + 1) = max i m + 1 := by omega
    simp only [answer, hstops.drain_scanner, Answer.takenAfter, Answer.endsIteration,
      Bool.or_false, after_iterated, ← after_add, hmax]

theorem serve_after {s : Scanner} {m : Nat} (h : s.StopsAt m) (requests : List Request) (i : Nat)
    (isOver : Bool) :
    (((s.after i).iterated isOver).serve requests).2 =
      (s.after (taken m i (((s.after i).iterated isOver).serve requests).1)).iterated
        (isOver || (((s.after i).iterated isOver).serve requests).1.any Answer.endsIteration) := by
  induction requests generalizing i isOver with
  | nil => simp only [serve, taken, List.foldl_nil, List.any_nil, Bool.or_false]
  | cons request requests ih =>
    simp only [serve, answer_after h i isOver request, ih, taken, List.foldl_cons, List.any_cons,
      Bool.or_assoc]

theorem offset_le_next (s : Scanner) : s.reader.offset ≤ s.next.scanner.reader.offset := by
  have hblank := s.reader.offset_le_passWhile CharClass.isBlank
  cases s.finds with
  | failure failed => rw [next_of_failure failed]
  | nothing sound unread =>
    rw [next_at_end sound unread]
    exact hblank
  | fault sound unread reads =>
    rw [next_of_fault sound unread reads]
    exact Nat.le_trans hblank (TextReader.offset_le_moveFrom 0 _ _)
  | piece sound unread reads =>
    rw [next_of_piece sound unread reads]
    exact Nat.le_trans hblank (TextReader.offset_le_moveFrom 0 _ _)

theorem offset_le_after (s : Scanner) (i : Nat) : s.reader.offset ≤ (s.after i).reader.offset := by
  induction i generalizing s with
  | zero => exact Nat.le_refl _
  | succ i ih => exact Nat.le_trans s.offset_le_next (ih s.next.scanner)

section Within

variable {text : List Char} {s : Scanner}

/-- A request for a token passes blanks and then a piece, all of them in the text. -/
theorem Within.next (h : s.Within text) : s.next.scanner.Within text := by
  obtain ⟨n, hn, hreader⟩ := h
  obtain ⟨i, hi, hblank⟩ : ∃ i ≤ text.length,
      s.reader.passWhile CharClass.isBlank = .behind s.rules.newlines text i := by
    rw [hreader]
    exact TextReader.exists_move_behind s.rules.newlines hn _
  cases s.finds with
  | failure failed =>
    rw [next_of_failure failed]
    exact ⟨n, hn, hreader⟩
  | nothing sound unread =>
    rw [next_at_end sound unread]
    exact ⟨i, hi, hblank⟩
  | fault sound unread reads =>
    rw [next_of_fault sound unread reads, hblank]
    exact TextReader.exists_move_behind s.rules.newlines hi _
  | piece sound unread reads =>
    rw [next_of_piece sound unread reads, hblank]
    exact TextReader.exists_move_behind s.rules.newlines hi _

theorem Within.after (h : s.Within text) (i : Nat) : (s.after i).Within text := by
  induction i generalizing s with
  | zero => exact h
  | succ i ih => exact ih h.next

theorem Within.answer (h : s.Within text) (request : Request) :
    (s.answer request).2.Within text := by
  cases request with
  | token => exact h.next
  | item =>
    cases hover : s.isExhausted with
    | true =>
      simp only [Scanner.answer, item?, hover, if_true]
      exact h
    | false =>
      simp only [Scanner.answer, item?, hover, Bool.false_eq_true, if_false]
      exact h.next
  | rest =>
    obtain ⟨m, hstops⟩ := s.exists_stopsAt
    rw [Scanner.answer, hstops.drain_scanner]
    exact h.after (m + 1)

theorem Within.serve (h : s.Within text) (requests : List Request) :
    (s.serve requests).2.Within text := by
  induction requests generalizing s with
  | nil => exact h
  | cons request requests ih => exact ih (h.answer request)

end Within

/-- What a scanner answers when `i` items of a stream have been taken from it, the last item has the
index `m`, and an iteration may be over. -/
structure Delivers (s : Scanner) (item : Nat → Except ScanError Token) (m i : Nat)
    (isOver : Prop) : Prop where
  next_eq : s.next.outcome = item (min i m)
  /-- All that is left: the items up to the end of the text, or the error. -/
  drain_eq :
    match item m with
    | .ok _ => ∃ ts, s.drain.outcome = .ok ts ∧
        ts.map .ok = (List.range' (min i m) (m + 1 - min i m)).map item
    | .error error => s.drain.outcome = .error error
  next_of_drain : s.drain.scanner.next.outcome = item m
  item_eq_none_iff : s.item? = none ↔ isOver
  /-- An item is a request for a token, apart from the mark it leaves. -/
  item_eq : ∀ step, s.item? = some step →
    step.outcome = s.next.outcome ∧ step.events = s.next.events ∧
      step.scanner.iterated s.isExhausted = s.next.scanner
  offset_le : ∀ request, s.reader.offset ≤ (s.answer request).2.reader.offset
  /-- Behind the last item the scanner does not move. -/
  reader_eq : m < i → ∀ request, (s.answer request).2.reader = s.reader

/-- Results read in turn: a list of tokens, unless the last one is an error. -/
theorem mapM_result {item : Nat → Except ScanError Token} {front : List Nat} {m : Nat}
    (hfront : ∀ j ∈ front, isLast (item j) = false) :
    match item m with
    | .ok _ => ∃ ts, (front ++ [m]).mapM item = .ok ts ∧ ts.map .ok = (front ++ [m]).map item
    | .error error => (front ++ [m]).mapM item = .error error := by
  induction front with
  | nil => cases hm : item m <;> simp [hm, pure, Except.pure, bind, Except.bind]
  | cons j front ih =>
    have hrest := ih fun k hk => hfront k (List.mem_cons_of_mem j hk)
    have hfirst := hfront j List.mem_cons_self
    cases hj : item j with
    | error error => simp [hj, isLast] at hfirst
    | ok token =>
      cases hm : item m with
      | error error =>
        simp only [hm] at hrest ⊢
        rw [List.cons_append, List.mapM_cons, hj, hrest]
        rfl
      | ok last =>
        simp only [hm] at hrest ⊢
        obtain ⟨ts, hts, hmap⟩ := hrest
        refine ⟨token :: ts, ?_, ?_⟩
        · rw [List.cons_append, List.mapM_cons, hj, hts]
          rfl
        · rw [List.cons_append, List.map_cons, List.map_cons, hmap, hj]

section Delivers

variable {s : Scanner} {m : Nat}

/-- What is left behind `i` results; the last one is taken once more if there is no other. -/
theorem StopsAt.drain_after (h : s.StopsAt m) (i : Nat) (isOver : Bool) :
    ((s.after i).iterated isOver).drain.outcome =
      (List.range' (min i m) (m - i) ++ [m]).mapM s.result := by
  have hstops := (h.of_after i).iterated isOver
  have hitems : (List.range (m - i + 1)).map (fun j => s.result (i + j)) =
      (List.range' (min i m) (m - i) ++ [m]).map s.result := by
    rw [List.range_succ, List.map_append, List.map_append, List.range'_eq_map_range, List.map_map]
    congr 1
    · refine List.map_congr_left fun j hj => ?_
      have hlt := List.mem_range.mp hj
      rw [Function.comp_apply, Nat.min_eq_left (by omega)]
    · rw [List.map_singleton, List.map_singleton, h.result_eq (by omega)]
  have hresult : ((s.after i).iterated isOver).result = fun j => s.result (i + j) :=
    funext fun j => by rw [result_iterated, result_add]
  calc ((s.after i).iterated isOver).drain.outcome
    _ = ((List.range (m - i + 1)).map fun j => s.result (i + j)).mapM id := by
      rw [hstops.drain_outcome, hresult, List.mapM_map]
      rfl
    _ = (List.range' (min i m) (m - i) ++ [m]).mapM s.result := by
      rw [hitems, List.mapM_map]
      rfl

theorem StopsAt.delivers (h : s.StopsAt m) (i : Nat) (isOver : Bool) :
    ((s.after i).iterated isOver).Delivers s.result m i (isOver = true) where
  next_eq := by
    rw [h.result_min, next_iterated]
    rfl
  drain_eq := by
    have hfront : ∀ j ∈ List.range' (min i m) (m - i), isLast (s.result j) = false := by
      intro j hj
      obtain ⟨k, hk, rfl⟩ := List.mem_range'.mp hj
      exact h.before _ (by omega)
    have hitems : List.range' (min i m) (m - i) ++ [m] =
        List.range' (min i m) (m + 1 - min i m) := by
      have hcount : m + 1 - min i m = m - i + 1 := by omega
      have hm : min i m + (m - i) = m := by omega
      rw [hcount, List.range'_1_concat, hm]
    rw [h.drain_after, ← hitems]
    exact mapM_result hfront
  next_of_drain := by
    have hstops := (h.of_after i).iterated isOver
    rw [hstops.drain_scanner, after_iterated, next_iterated, ← after_add]
    exact h.result_eq (by omega)
  item_eq_none_iff := by
    cases isOver <;> simp [item?] <;> rfl
  item_eq := by
    intro step hstep
    cases isOver with
    | true => cases hstep
    | false =>
      cases hstep
      exact ⟨rfl, rfl, by rw [next_iterated]; rfl⟩
  offset_le := by
    intro request
    obtain ⟨j, hj⟩ := Nat.exists_eq_add_of_le (Answer.le_takenAfter m i
      (((s.after i).iterated isOver).answer request).1)
    rw [answer_after h, hj, after_add]
    exact (s.after i).offset_le_after j
  reader_eq := by
    intro hi request
    have hle := Answer.le_takenAfter m i (((s.after i).iterated isOver).answer request).1
    rw [answer_after h, h.after_eq (Nat.lt_of_lt_of_le hi hle), ← h.after_eq hi]
    rfl

end Delivers

end Scanner

/-- Any mix of requests is answered from one stream, without loss and without repetition. The stream
is what requests for a token alone deliver, and its last item, the end of the text or an error,
has the index `m` and is delivered for ever. After any requests, when `i` items have been taken, a
request for a token delivers the next item, a request for the rest all that are left, and an
iteration the next item too unless an iteration has delivered the last one before. The place
reached never goes back, and behind the last item it does not change. -/
theorem mixed_requests_share_stream (rules : Rules) (text : String) :
    ∃ m, (Scanner.start rules text).StopsAt m ∧
      (∀ i, m ≤ i →
        (Scanner.start rules text).result i = (Scanner.start rules text).result m) ∧
      ∀ requests,
        ((Scanner.start rules text).serve requests).2.Delivers (Scanner.start rules text).result m
          (taken m 0 ((Scanner.start rules text).serve requests).1)
          (∃ answer ∈ ((Scanner.start rules text).serve requests).1,
            answer.endsIteration = true) := by
  obtain ⟨m, h⟩ := (Scanner.start rules text).exists_stopsAt
  refine ⟨m, h, fun i hi => h.result_eq hi, fun requests => ?_⟩
  have hserve := Scanner.serve_after h requests 0 false
  have hstart : ((Scanner.start rules text).after 0).iterated false = Scanner.start rules text :=
    rfl
  have hdelivers := h.delivers (taken m 0 ((Scanner.start rules text).serve requests).1)
    (((Scanner.start rules text).serve requests).1.any Answer.endsIteration)
  rw [hstart, Bool.false_or] at hserve
  rwa [← hserve, List.any_eq_true] at hdelivers

end PhpTokens
