import PhpTokens.Proofs.Scan.MixedRequests
import PhpTokens.Proofs.Scan.Reading

/-! When a request fails, and what it leaves. A fault can be told from the unread text behind its
blanks alone: a character that nothing begins with, or a mark that opens what nothing closes. There
is one exactly where a request fails, and the scanner is then left at the character at fault, or
behind it if that is the quote of an open string. -/

namespace PhpTokens

/-- The characters, letters and numerals apart, that something begins with whatever follows. -/
def Lexeme.openers : List Char := ['$', '"', '#'] ++ Symbol.single

/-- The fault at the front of an unread text that does not begin with a blank. -/
def Fault.Besets (rule : OpenEndRule) (unread : List Char) : Fault → Prop
  | .strayCharacter c => unread.head? = some c ∧ CharClass.isLetter c = false ∧
      CharClass.isNumeral c = false ∧ c ∉ Lexeme.openers ∧ ¬ ['<', '?', 'p', 'h', 'p'] <+: unread
  | .openString => rule = .strict ∧ ∃ rest, unread = '"' :: rest ∧ '"' ∉ rest
  | .openComment => rule = .strict ∧ unread.head? = some '#' ∧ '\n' ∉ unread

theorem Fault.not_besets_nil (rule : OpenEndRule) (fault : Fault) : ¬ fault.Besets rule [] := by
  intro h
  cases fault with
  | strayCharacter c => cases h.1
  | openString =>
    obtain ⟨_, rest, hunread, _⟩ := h
    cases hunread
  | openComment => cases h.2.1

namespace Lexeme

variable {rules : Rules} {c : Char} {rest : List Char} {fault : Fault}

theorem besets_of_read (h : read rules c rest = .error fault) :
    fault.Besets rules.unterminated (c :: rest) := by
  -- the ways of reading in turn; words, numbers and variable names are always read
  by_cases hletter : CharClass.isLetter c = true
  · rw [read_letter hletter] at h
    cases h
  rw [Bool.not_eq_true] at hletter
  by_cases hnumeral : CharClass.isNumeral c = true
  · rw [read_numeral hletter hnumeral] at h
    cases h
  rw [Bool.not_eq_true] at hnumeral
  by_cases hmarks : c ∈ ['$', '"', '#']
  · simp only [List.mem_cons, List.not_mem_nil, or_false] at hmarks
    obtain rfl | rfl | rfl := hmarks
    · rw [read_dollar] at h
      cases h
    · rw [read_quote, enclosed_eq_error_iff] at h
      obtain ⟨rfl, hstrict, hopen⟩ := h
      exact ⟨hstrict, rest, rfl, hopen⟩
    · rw [read_hash, enclosed_eq_error_iff] at h
      obtain ⟨rfl, hstrict, hopen⟩ := h
      exact ⟨hstrict, rfl, by simpa using hopen⟩
  · rw [read_plain hletter hnumeral hmarks] at h
    cases hsymbol : Symbol.leading? (c :: rest) with
    | some s =>
      rw [hsymbol] at h
      cases h
    | none =>
      rw [hsymbol] at h
      cases h
      obtain ⟨hsingle, htag⟩ := Symbol.leading?_cons_eq_none_iff.mp hsymbol
      refine ⟨rfl, hletter, hnumeral, fun hmem => ?_, htag⟩
      rcases List.mem_append.mp hmem with hmark | hmark
      · exact hmarks hmark
      · exact hsingle hmark

theorem read_of_besets (h : fault.Besets rules.unterminated (c :: rest)) :
    read rules c rest = .error fault := by
  cases fault with
  | strayCharacter d =>
    obtain ⟨hhead, hletter, hnumeral, hopeners, htag⟩ := h
    obtain rfl : c = d := Option.some.inj hhead
    rw [openers, List.mem_append, not_or] at hopeners
    obtain ⟨hmarks, hsingle⟩ := hopeners
    rw [read_plain hletter hnumeral hmarks,
      Symbol.leading?_cons_eq_none_iff.mpr ⟨hsingle, htag⟩]
  | openString =>
    obtain ⟨hstrict, more, hunread, hopen⟩ := h
    cases hunread
    rw [read_quote, enclosed_eq_error_iff]
    exact ⟨rfl, hstrict, hopen⟩
  | openComment =>
    obtain ⟨hstrict, hhead, hopen⟩ := h
    obtain rfl : c = '#' := Option.some.inj hhead
    rw [read_hash, enclosed_eq_error_iff]
    exact ⟨rfl, hstrict, fun hmem => hopen (List.mem_cons_of_mem _ hmem)⟩

end Lexeme

namespace Scanner

/-- What an error leaves of a scanner whose reader has come to `k` behind the blanks. An open string
is found behind its quote, the other faults in front of their character. -/
def stoppedAt (s : Scanner) (k : TextReader) (error : ScanError) : Scanner :=
  { s with
    reader := match error.fault with
      | .strayCharacter _ | .openComment => k
      | .openString => (k.move 1).2
    failure := some error }

section Sound

variable {s : Scanner} (sound : s.failure = none) {error : ScanError}
include sound

/-- A request fails exactly at a fault, and tells the line and column of its first character. -/
theorem next_eq_error_iff :
    s.next.outcome = .error error ↔
      error.fault.Besets s.rules.unterminated (s.reader.passWhile CharClass.isBlank).unread ∧
        error.line = (s.reader.passWhile CharClass.isBlank).line ∧
        error.column = (s.reader.passWhile CharClass.isBlank).column := by
  cases s.finds with
  | failure failed => cases sound.symm.trans failed
  | nothing _ unread =>
    rw [next_at_end sound unread, unread]
    constructor
    · intro h
      cases h
    · rintro ⟨hfault, _⟩
      exact absurd hfault (Fault.not_besets_nil _ _)
  | @fault c rest fault _ unread reads =>
    rw [next_of_fault sound unread reads, unread]
    constructor
    · intro h
      cases h
      exact ⟨Lexeme.besets_of_read reads, rfl, rfl⟩
    · rintro ⟨hfault, hline, hcolumn⟩
      obtain rfl : fault = error.fault :=
        Except.error.inj (reads.symm.trans (Lexeme.read_of_besets hfault))
      rw [stepOfFault, ← hline, ← hcolumn]
  | piece _ unread reads =>
    rw [next_of_piece sound unread reads, unread]
    constructor
    · intro h
      cases h
    · rintro ⟨hfault, _⟩
      cases reads.symm.trans (Lexeme.read_of_besets hfault)

theorem next_isOk_iff :
    s.next.outcome.isOk = true ↔ ∀ fault : Fault,
      ¬ fault.Besets s.rules.unterminated (s.reader.passWhile CharClass.isBlank).unread := by
  constructor
  · intro hok fault hfault
    have hfails : s.next.outcome = .error ⟨fault, _, _⟩ :=
      (next_eq_error_iff sound).mpr ⟨hfault, rfl, rfl⟩
    rw [hfails] at hok
    cases hok
  · intro hnone
    cases hnext : s.next.outcome with
    | ok token => rfl
    | error error => exact absurd ((next_eq_error_iff sound).mp hnext).1 (hnone error.fault)

theorem scanner_of_error (h : s.next.outcome = .error error) :
    s.next.scanner = s.stoppedAt (s.reader.passWhile CharClass.isBlank) error := by
  cases s.finds with
  | failure failed => cases sound.symm.trans failed
  | nothing _ unread =>
    rw [next_at_end sound unread] at h
    cases h
  | @fault c rest fault _ unread reads =>
    rw [next_of_fault sound unread reads] at h ⊢
    cases h
    cases fault <;> rfl
  | piece _ unread reads =>
    rw [next_of_piece sound unread reads] at h
    cases h

end Sound

/-- When a request for a token fails, from a scanner of a text, and what it leaves. The reader `k`
has passed the blanks. -/
structure FailsAt (text : List Char) (s : Scanner) (k : TextReader) : Prop where
  /-- What is unread is the text behind the bytes passed. -/
  unread_eq : SourceText.dropBytes? s.reader.offset text = some s.reader.unread
  blanks : k.unread = s.reader.unread.dropWhile CharClass.isBlank
  reader_eq : ∃ n ≤ text.length, k = .behind s.rules.newlines text n
  /-- There is an error exactly at a fault, with the line and column of the reader. -/
  error_iff : ∀ error, s.next.outcome = .error error ↔
    error.fault.Besets s.rules.unterminated k.unread ∧
      error.line = k.line ∧ error.column = k.column
  ok_iff : s.next.outcome.isOk = true ↔
    ∀ fault : Fault, ¬ fault.Besets s.rules.unterminated k.unread
  /-- As a failure of a source, the error is one of a place and not of a file. -/
  readable : ∀ failure, s.next.outcome.mapError Failure.lexical = .error failure →
    failure.location? = some (k.line, k.column) ∧
      ∀ path cause, failure ≠ .unreadable path cause
  scanner_eq : ∀ error, s.next.outcome = .error error → s.next.scanner = s.stoppedAt k error

theorem Within.failsAt {text : List Char} {s : Scanner} (h : s.Within text)
    (sound : s.failure = none) : s.FailsAt text (s.reader.passWhile CharClass.isBlank) where
  unread_eq := h.dropBytes?_eq
  blanks := TextReader.passWhile_unread _ _
  reader_eq := by
    obtain ⟨n, hn, hreader⟩ := h
    rw [hreader]
    exact TextReader.exists_move_behind s.rules.newlines hn _
  error_iff error := next_eq_error_iff sound
  ok_iff := next_isOk_iff sound
  readable failure hfailure := by
    cases hnext : s.next.outcome with
    | ok token =>
      rw [hnext] at hfailure
      cases hfailure
    | error error =>
      obtain ⟨_, hline, hcolumn⟩ := (next_eq_error_iff sound).mp hnext
      rw [hnext] at hfailure
      cases hfailure
      rw [Failure.location?, hline, hcolumn]
      exact ⟨rfl, nofun⟩
  scanner_eq error hnext := scanner_of_error sound hnext

end Scanner

/-- Requests fail exactly where they should, and leave a known state. After any number of requests
that succeeded, the next one fails if and only if a fault besets the unread text behind its blanks:
a character that is no letter, no numeral and no opener and does not begin the open tag, or, under
the strict rule, a quote or a comment mark that nothing closes. The error tells this fault, with
the line and column of its character, and the scanner is left there; behind an open string it is
left at the character after the quote. -/
theorem next_fails_at_faults (rules : Rules) (text : String) (i : Nat)
    (h : ∀ j < i, ((Scanner.start rules text).result j).isOk = true) :
    ((Scanner.start rules text).after i).rules = rules ∧
      ((Scanner.start rules text).after i).FailsAt text.toList
        (((Scanner.start rules text).after i).reader.passWhile CharClass.isBlank) := by
  rw [Scanner.start_eq_behind] at h ⊢
  obtain ⟨n, hn, hafter⟩ := Scanner.exists_after_eq_behind (Nat.zero_le _) h
  rw [hafter]
  have hwithin : (Scanner.behind rules text.toList n).Within text.toList := ⟨n, hn, rfl⟩
  exact ⟨rfl, hwithin.failsAt rfl⟩

/-- A literal with a break, a letter of two bytes and no end, behind a blank of three bytes. -/
theorem next_fails_at_open_string :
    let rules : Rules := { newlines := .whenNext, anchor := .finish }
    let s := (Scanner.start rules "é\n\u3000\"ü\n").after 1
    (∀ j < 1, ((Scanner.start rules "é\n\u3000\"ü\n").result j).isOk = true) ∧
      s.next.outcome = .error ⟨.openString, 2, 3⟩ ∧
      s.next.scanner.reader = ⟨.whenNext, ['ü', '\n'], 7, 2, 4⟩ ∧
      s.rules = rules ∧
      s.FailsAt "é\n\u3000\"ü\n".toList (s.reader.passWhile CharClass.isBlank) := by
  have hok : ∀ j < 1, ((Scanner.start { newlines := .whenNext, anchor := .finish }
      "é\n\u3000\"ü\n").result j).isOk = true := by decide +kernel
  exact ⟨hok, by decide +kernel, by decide +kernel, next_fails_at_faults _ _ 1 hok⟩

end PhpTokens
