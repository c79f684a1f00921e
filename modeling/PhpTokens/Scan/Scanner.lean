import PhpTokens.Scan.Event
import PhpTokens.Text.Reader

/-!
The scanner divides a text into tokens, one request at a time. Requests of all sorts may be mixed
and always continue where the last one stopped. The end of the text is delivered again and again,
and so is the first error. Every request leaves what it logged beside its result. A scan ends
because every step before the last one takes at least one character.
-/
namespace PhpTokens

structure Scanner where
  rules : Rules
  reader : TextReader
  /-- The error that ended the scan. -/
  failure : Option ScanError := none
  /-- An iteration has delivered its last item. -/
  isExhausted : Bool := false
  deriving DecidableEq, Repr

/-- The result of one request, what it logged, and the scanner after it. -/
structure Step where
  outcome : Except ScanError Token
  events : List Event
  scanner : Scanner

/-- The step delivers the end of the text or an error. -/
def Step.isLast (s : Step) : Bool :=
  match s.outcome with
  | .ok token => token.kind == .endOfInput
  | .error _ => true

namespace Scanner

/-- The scanner before the first character of a text. -/
def start (rules : Rules) (text : String) : Scanner :=
  { rules, reader := .start rules.newlines text.toList }

/-- The end of the text, reported as a token without text and, by custom, of length one. -/
def endToken (k : TextReader) : Token :=
  { kind := .endOfInput, text := "", place := k.place 1, extent := ⟨k.offset, k.offset⟩ }

/-- The token made of the characters between two readers. -/
def tokenBetween (anchor : Anchor) (kind : Kind) (before : TextReader) (length : Nat)
    (after : TextReader) : Token :=
  { kind
    text := String.ofList (before.unread.take length)
    place := match anchor with
      | .start => before.place length
      | .finish => after.place length
    extent := ⟨before.offset, after.offset⟩ }

/-- The warning for a piece that the end of the text closes, which begins at the reader. -/
def openEndEvents (piece : Lexeme) (k : TextReader) : List Event :=
  if piece.isClosed then []
  else
    match piece.kind with
    | .comment => [.openComment k.line k.column]
    | _ => [.openString k.line k.column]

/-- The step that takes a piece, from the reader before it. -/
def stepOfPiece (s : Scanner) (k : TextReader) (piece : Lexeme) : Step :=
  let (length, after) := k.move piece.length
  let token := tokenBetween s.rules.anchor piece.kind k length after
  { outcome := .ok token
    events := openEndEvents piece k ++ [.token token.kind token.place.line token.place.column]
    scanner := { s with reader := after } }

/-- The step that stops at a fault, from the reader before the piece at fault. -/
def stepOfFault (s : Scanner) (k : TextReader) (fault : Fault) : Step :=
  let error : ScanError := ⟨fault, k.line, k.column⟩
  { outcome := .error error
    events := [.failed error]
    scanner := { s with reader := (k.move fault.passed).2, failure := some error } }

/-- The next token, or the error that ended the scan. -/
def next (s : Scanner) : Step :=
  match s.failure with
  | some error => ⟨.error error, [], s⟩
  | none =>
    let k := s.reader.passWhile CharClass.isBlank
    match k.unread with
    | [] => ⟨.ok (endToken k), [], { s with reader := k }⟩
    | c :: rest =>
      match Lexeme.read s.rules c rest with
      | .error fault => s.stepOfFault k fault
      | .ok piece => s.stepOfPiece k piece

/-- The next item of an iteration, which is over after the end of the text or an error. -/
def item? (s : Scanner) : Option Step :=
  if s.isExhausted then none
  else
    let step := s.next
    some { step with scanner := { step.scanner with isExhausted := step.isLast } }

theorem next_of_failure {s : Scanner} {error : ScanError} (h : s.failure = some error) :
    s.next = ⟨.error error, [], s⟩ := by
  simp [next, h]

theorem next_at_end {s : Scanner} (h : s.failure = none)
    (hunread : (s.reader.passWhile CharClass.isBlank).unread = []) :
    s.next = ⟨.ok (endToken (s.reader.passWhile CharClass.isBlank)), [],
      { s with reader := s.reader.passWhile CharClass.isBlank }⟩ := by
  simp [next, h, hunread]

theorem next_of_fault {s : Scanner} {c : Char} {rest : List Char} {fault : Fault}
    (h : s.failure = none) (hunread : (s.reader.passWhile CharClass.isBlank).unread = c :: rest)
    (hread : Lexeme.read s.rules c rest = .error fault) :
    s.next = s.stepOfFault (s.reader.passWhile CharClass.isBlank) fault := by
  simp [next, h, hunread, hread]

theorem next_of_piece {s : Scanner} {c : Char} {rest : List Char} {piece : Lexeme}
    (h : s.failure = none) (hunread : (s.reader.passWhile CharClass.isBlank).unread = c :: rest)
    (hread : Lexeme.read s.rules c rest = .ok piece) :
    s.next = s.stepOfPiece (s.reader.passWhile CharClass.isBlank) piece := by
  simp [next, h, hunread, hread]

/-- A step that is not the last one leaves less text unread. -/
theorem next_unread_lt (s : Scanner) (h : s.next.isLast = false) :
    s.next.scanner.reader.unread.length < s.reader.unread.length := by
  cases hfailure : s.failure with
  | some error => simp [next_of_failure hfailure, Step.isLast] at h
  | none =>
    cases hunread : (s.reader.passWhile CharClass.isBlank).unread with
    | nil => simp [next_at_end hfailure hunread, Step.isLast, endToken] at h
    | cons c rest =>
      cases hread : Lexeme.read s.rules c rest with
      | error fault =>
        simp [next_of_fault hfailure hunread hread, stepOfFault, Step.isLast] at h
      | ok piece =>
        have hpos := Lexeme.read_pos hread
        have hle : (s.reader.passWhile CharClass.isBlank).unread.length ≤
            s.reader.unread.length := by
          rw [TextReader.passWhile_unread]
          exact (List.dropWhile_suffix _).length_le
        have hleft : (s.reader.passWhile CharClass.isBlank).unread.length = rest.length + 1 := by
          simp [hunread]
        simp only [next_of_piece hfailure hunread hread, stepOfPiece, TextReader.move_unread,
          List.length_drop]
        omega

/-- Puts the steps up to the last one in front of `done`, the latest first. -/
def stepsOnto (done : List Step) (s : Scanner) : List Step :=
  let step := s.next
  if _h : step.isLast = true then step :: done else stepsOnto (step :: done) step.scanner
termination_by s.reader.unread.length
decreasing_by exact next_unread_lt s (by simpa using _h)

/-- All steps up to the end of the text or the first error. -/
def steps (s : Scanner) : List Step := (stepsOnto [] s).reverse

theorem stepsOnto_append (done more : List Step) (s : Scanner) :
    stepsOnto (done ++ more) s = stepsOnto done s ++ more := by
  fun_induction stepsOnto done s with
  | case1 done s step hlast =>
    rw [stepsOnto, dif_pos hlast]
    rfl
  | case2 done s step hlast ih =>
    rw [stepsOnto, dif_neg hlast]
    exact ih

theorem steps_of_last {s : Scanner} (h : s.next.isLast = true) : s.steps = [s.next] := by
  rw [steps, stepsOnto, dif_pos h]
  rfl

theorem steps_of_not_last {s : Scanner} (h : s.next.isLast = false) :
    s.steps = s.next :: s.next.scanner.steps := by
  have happend := stepsOnto_append [] [s.next] s.next.scanner
  rw [steps, stepsOnto, dif_neg (by simp [h])]
  simp only [List.nil_append] at happend
  simp [happend, steps]

end Scanner

/-- The result of reading all that is left, what was logged, and the scanner after it. -/
structure Scan where
  outcome : Except ScanError (List Token)
  events : List Event
  scanner : Scanner

/-- All tokens that are left, the end of the text included, or the error that comes first. -/
def Scanner.drain (s : Scanner) : Scan :=
  let steps := s.steps
  let outcome := steps.mapM (·.outcome)
  { outcome
    events := steps.flatMap (·.events) ++
      match outcome with
      | .ok tokens => [.finished tokens.length]
      | .error _ => []
    scanner := (steps.getLast?.map (·.scanner)).getD s }

/-- The tokens of a text. -/
def tokens (rules : Rules) (text : String) : Except ScanError (List Token) :=
  (Scanner.start rules text).drain.outcome

end PhpTokens
