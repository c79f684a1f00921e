import PhpTokens.Proofs.Scan.Cutting
import PhpTokens.Proofs.Text.Runs

/-! What is read, as a relation between the characters of a piece and the one character behind
them. The scanner looks further ahead, for keywords, for long symbols and for the marks that close
literals and comments; but whether a text is read as a piece depends on no more than that one
character, whatever stands behind it. -/

namespace PhpTokens

/-- A letter, and characters that continue a word. -/
structure IsWord (w : List Char) : Prop where
  front : ∃ c, w.head? = some c ∧ CharClass.isLetter c = true
  parts : ∀ c ∈ w, CharClass.isWordPart c = true

theorem IsWord.ne_nil {w : List Char} (h : IsWord w) : w ≠ [] := by
  rintro rfl
  obtain ⟨c, hc, _⟩ := h.front
  cases hc

theorem isWord_takeWhile {c : Char} (h : CharClass.isLetter c = true) (rest : List Char) :
    IsWord ((c :: rest).takeWhile CharClass.isWordPart) := by
  refine ⟨⟨c, ?_, h⟩, fun d hd => List.mem_takeWhile_imp hd⟩
  rw [List.takeWhile_cons_of_pos (CharClass.isWordPart_of_isLetter h)]
  rfl

theorem Keyword.isWord_of_spelledBy {k : Keyword} {w : List Char} (h : k.spelledBy w = true) :
    IsWord w := by
  have hletters := isLetter_of_spelledBy h
  refine ⟨?_, fun c hc => CharClass.isWordPart_of_isLetter (hletters c hc)⟩
  cases w with
  | nil =>
    have hlength := length_of_spelledBy h
    cases k <;> cases hlength
  | cons c w => exact ⟨c, rfl, hletters c List.mem_cons_self⟩

/-- No keyword is made of the word, or of a part of it. -/
def KeywordRule.Spares (rule : KeywordRule) (w : List Char) : Prop :=
  match rule with
  | .wholeWord => ∀ k : Keyword, k.spelledBy w = false
  | .leading => ∀ k : Keyword, ¬ k.Begins w

namespace Lexeme

/-- The characters that are read as a piece, and the character that comes next. -/
inductive Reads (rules : Rules) : List Char → Option Char → Lexeme → Prop where
  | keyword {k : Keyword} {w : List Char} {next : Option Char} (spelled : k.spelledBy w = true)
      (stops : rules.keywords = .wholeWord → Stops CharClass.isWordPart next) :
      Reads rules w next { kind := .keyword k, length := w.length }
  | identifier {w : List Char} {next : Option Char} (word : IsWord w)
      (spared : rules.keywords.Spares w) (stops : Stops CharClass.isWordPart next) :
      Reads rules w next { kind := .identifier, length := w.length }
  | variableName {name : List Char} {next : Option Char}
      (parts : ∀ c ∈ name, CharClass.isWordPart c = true)
      (stops : Stops CharClass.isWordPart next) :
      Reads rules ('$' :: name) next { kind := .variableName, length := name.length + 1 }
  | number {c : Char} {more : List Char} {next : Option Char}
      (plain : CharClass.isLetter c = false)
      (numerals : ∀ d ∈ c :: more, CharClass.isNumeral d = true)
      (stops : Stops CharClass.isNumeral next) :
      Reads rules (c :: more) next { kind := .number, length := more.length + 1 }
  | string {body : List Char} {next : Option Char} (inner : '"' ∉ body) :
      Reads rules ('"' :: (body ++ ['"'])) next
        { kind := .stringLiteral, length := body.length + 2 }
  | openString {body : List Char} (lenient : rules.unterminated = .lenient) (inner : '"' ∉ body) :
      Reads rules ('"' :: body) none
        { kind := .stringLiteral, length := body.length + 1, isClosed := false }
  | comment {body : List Char} (inner : '\n' ∉ body) :
      Reads rules ('#' :: body) (some '\n') { kind := .comment, length := body.length + 1 }
  | openComment {body : List Char} (lenient : rules.unterminated = .lenient)
      (inner : '\n' ∉ body) :
      Reads rules ('#' :: body) none
        { kind := .comment, length := body.length + 1, isClosed := false }
  | symbol {s : Symbol} {next : Option Char}
      (stops : ∀ t : Symbol, ∀ c, next = some c → t.spelling ≠ s.spelling ++ [c]) :
      Reads rules s.spelling next { kind := .symbol s, length := s.spelling.length }

theorem Reads.length_eq {rules : Rules} {w : List Char} {next : Option Char} {piece : Lexeme}
    (h : Reads rules w next piece) : piece.length = w.length := by
  cases h <;> simp

theorem Reads.ne_nil {rules : Rules} {w : List Char} {next : Option Char} {piece : Lexeme}
    (h : Reads rules w next piece) : w ≠ [] := by
  cases h with
  | keyword spelled _ => exact (Keyword.isWord_of_spelledBy spelled).ne_nil
  | identifier word _ _ => exact word.ne_nil
  | @symbol s _ _ =>
    obtain ⟨c, rest, hspelling, _⟩ := s.exists_spelling_eq_cons
    rw [hspelling]
    exact List.cons_ne_nil _ _
  | _ => exact List.cons_ne_nil _ _

/-- A piece that is closed is read under all rules that tell keywords alike. -/
theorem Reads.of_rules {rules rules' : Rules} {w : List Char} {next : Option Char}
    {piece : Lexeme} (h : Reads rules w next piece) (hkeywords : rules'.keywords = rules.keywords)
    (hclosed : piece.isClosed = true) : Reads rules' w next piece := by
  cases h with
  | keyword spelled stops => exact .keyword spelled fun hrule => stops (hkeywords ▸ hrule)
  | identifier word spared stops => exact .identifier word (hkeywords ▸ spared) stops
  | variableName parts stops => exact .variableName parts stops
  | number plain numerals stops => exact .number plain numerals stops
  | string inner => exact .string inner
  | comment inner => exact .comment inner
  | openString _ _ | openComment _ _ => cases hclosed
  | symbol stops => exact .symbol stops

/-- Only a piece behind which nothing comes is not closed, and only under the lenient rule. -/
theorem Reads.isClosed {rules : Rules} {w : List Char} {next : Option Char} {piece : Lexeme}
    (h : Reads rules w next piece) (hclosed : rules.unterminated = .strict ∨ next ≠ none) :
    piece.isClosed = true := by
  cases h with
  | openString lenient _ | openComment lenient _ => simp [lenient] at hclosed
  | _ => rfl

theorem read_dollar (rules : Rules) (rest : List Char) :
    read rules '$' rest = .ok { kind := .variableName, length := 1 + wordLength rest } := by
  have hplain := CharClass.isWordPart_marks '$' (by decide)
  rw [read, if_neg (by simp [CharClass.isLetter_eq_false hplain]), if_pos rfl]

theorem read_quote (rules : Rules) (rest : List Char) :
    read rules '"' rest = enclosed '"' .stringLiteral .openString 2 rules.unterminated rest := by
  have hplain := CharClass.isWordPart_marks '"' (by decide)
  have hletter := CharClass.isLetter_eq_false hplain
  have hnumeral := CharClass.isNumeral_eq_false hplain
  rw [read, if_neg (by simp [hletter]), if_neg (by decide), if_neg (by simp [hnumeral]),
    if_pos (by rfl), ofString_eq_enclosed]

theorem read_hash (rules : Rules) (rest : List Char) :
    read rules '#' rest = enclosed '\n' .comment .openComment 1 rules.unterminated rest := by
  have hplain := CharClass.isWordPart_marks '#' (by decide)
  have hletter := CharClass.isLetter_eq_false hplain
  have hnumeral := CharClass.isNumeral_eq_false hplain
  rw [read, if_neg (by simp [hletter]), if_neg (by decide), if_neg (by simp [hnumeral]),
    if_neg (by decide), if_pos (by rfl), ofComment_eq_enclosed]

theorem read_numeral {c : Char} (hletter : CharClass.isLetter c = false)
    (hnumeral : CharClass.isNumeral c = true) (rules : Rules) (rest : List Char) :
    read rules c rest =
      .ok { kind := .number, length := ((c :: rest).takeWhile CharClass.isNumeral).length } := by
  have hdollar : c ≠ '$' := by
    rintro rfl
    have hplain := CharClass.isWordPart_marks '$' (by decide)
    rw [CharClass.isNumeral_eq_false hplain] at hnumeral
    cases hnumeral
  rw [read, if_neg (by simp [hletter]), if_neg hdollar, if_pos hnumeral]

/-- A character that selects no other way of reading can only begin a symbol. -/
theorem read_plain {c : Char} (hletter : CharClass.isLetter c = false)
    (hnumeral : CharClass.isNumeral c = false) (hmarks : c ∉ ['$', '"', '#']) (rules : Rules)
    (rest : List Char) :
    read rules c rest =
      match Symbol.leading? (c :: rest) with
      | some s => .ok { kind := .symbol s, length := s.spelling.length }
      | none => .error (.strayCharacter c) := by
  simp only [List.mem_cons, List.not_mem_nil, or_false, not_or] at hmarks
  obtain ⟨hdollar, hquote, hhash⟩ := hmarks
  have hquoteMark : ¬ CharClass.isQuoteMark c = true := by
    simpa [CharClass.isQuoteMark] using hquote
  have hcommentMark : ¬ CharClass.isCommentMark c = true := by
    simpa [CharClass.isCommentMark] using hhash
  cases hsymbol : Symbol.leading? (c :: rest) <;>
    simp only [read, hletter, if_neg hdollar, hnumeral, if_neg hquoteMark, if_neg hcommentMark,
      hsymbol, Bool.false_eq_true, if_false]

theorem read_symbol {s : Symbol} {c : Char} {rest : List Char}
    (h : Symbol.leading? (c :: rest) = some s) (rules : Rules) :
    read rules c rest = .ok { kind := .symbol s, length := s.spelling.length } := by
  obtain ⟨d, more, hspelling, hplain, hmarks⟩ := s.exists_spelling_eq_cons
  have hprefix := Symbol.prefix_of_leading? h
  rw [hspelling, List.cons_prefix_cons] at hprefix
  obtain ⟨rfl, _⟩ := hprefix
  rw [read_plain (CharClass.isLetter_eq_false hplain) (CharClass.isNumeral_eq_false hplain) hmarks,
    h]

/-- A word in front of a character that is in no word. -/
theorem wordLength_append {w after : List Char} (hw : ∀ c ∈ w, CharClass.isWordPart c = true)
    (hstops : Stops CharClass.isWordPart after.head?) : wordLength (w ++ after) = w.length := by
  rw [wordLength, takeWhile_append_of_stops hw hstops]

theorem ofWord_of_spelledBy {rule : KeywordRule} {k : Keyword} {w after : List Char}
    (hspelled : k.spelledBy w = true)
    (hstops : rule = .wholeWord → Stops CharClass.isWordPart after.head?) :
    ofWord rule (w ++ after) = { kind := .keyword k, length := w.length } := by
  cases rule with
  | wholeWord =>
    have hlength := wordLength_append (Keyword.isWord_of_spelledBy hspelled).parts (hstops rfl)
    simp only [ofWord, hlength, List.take_left, Keyword.ofWord?_eq_some_iff.mpr hspelled]
  | leading =>
    have hbegins : k.Begins (w ++ after) := ⟨w, List.prefix_append _ _, hspelled⟩
    simp only [ofWord, Keyword.leading?_eq_some_iff.mpr hbegins,
      Keyword.length_of_spelledBy hspelled]

theorem ofWord_of_spares {rule : KeywordRule} {w after : List Char} (hword : IsWord w)
    (hspared : rule.Spares w) (hstops : Stops CharClass.isWordPart after.head?) :
    ofWord rule (w ++ after) = { kind := .identifier, length := w.length } := by
  have hlength := wordLength_append hword.parts hstops
  cases rule with
  | wholeWord =>
    have hnone : Keyword.ofWord? w = none := by
      rw [Option.eq_none_iff_forall_ne_some]
      intro k hk
      rw [Keyword.ofWord?_eq_some_iff, hspared k] at hk
      cases hk
    simp only [ofWord, hlength, List.take_left, hnone]
  | leading =>
    have hnone : Keyword.leading? (w ++ after) = none := by
      rw [Keyword.leading?_eq_none_iff]
      intro k hk
      rw [← Keyword.begins_takeWhile_iff, takeWhile_append_of_stops hword.parts hstops] at hk
      exact hspared k hk
    simp only [ofWord, hlength, hnone]

/-- The mark that comes first closes the piece. -/
theorem enclosed_append {mark : Char} {body : List Char} (h : mark ∉ body) (kind : Kind)
    (fault : Fault) (around : Nat) (rule : OpenEndRule) (rest : List Char) :
    enclosed mark kind fault around rule (body ++ mark :: rest) =
      .ok { kind, length := body.length + around } := by
  have hbody : ∀ c ∈ body, (c != mark) = true := fun c hc => bne_iff_ne.mpr fun he => h (he ▸ hc)
  have htake : (body ++ mark :: rest).takeWhile (· != mark) = body :=
    takeWhile_append_of_stops hbody fun c hc => by simpa using hc.symm
  have hmem : mark ∈ body ++ mark :: rest := List.mem_append_right _ List.mem_cons_self
  simp only [enclosed, if_pos hmem, htake]

/-- Without a mark the piece takes all that is left. -/
theorem enclosed_of_not_mem {mark : Char} {body : List Char} (h : mark ∉ body) (kind : Kind)
    (fault : Fault) (around : Nat) :
    enclosed mark kind fault around .lenient body =
      .ok { kind, length := body.length + 1, isClosed := false } := by
  simp only [enclosed, if_neg h, Nat.add_comm]

/-- A piece is closed by its mark, or it takes all that is left. -/
theorem enclosed_eq_ok {mark : Char} {kind : Kind} {fault : Fault} {around : Nat}
    {rule : OpenEndRule} {text : List Char} {piece : Lexeme}
    (h : enclosed mark kind fault around rule text = .ok piece) :
    (∃ body rest, text = body ++ mark :: rest ∧ mark ∉ body ∧
      piece = { kind, length := body.length + around }) ∨
    (rule = .lenient ∧ mark ∉ text ∧
      piece = { kind, length := text.length + 1, isClosed := false }) := by
  by_cases hmem : mark ∈ text
  · obtain ⟨body, rest, rfl, hbody⟩ := List.eq_append_cons_of_mem hmem
    rw [enclosed_append hbody] at h
    exact .inl ⟨body, rest, rfl, hbody, (Except.ok.inj h).symm⟩
  · cases rule with
    | strict =>
      simp only [enclosed, if_neg hmem] at h
      cases h
    | lenient =>
      rw [enclosed_of_not_mem hmem] at h
      exact .inr ⟨rfl, hmem, (Except.ok.inj h).symm⟩

/-- What stands behind the next character is of no account. -/
theorem Reads.read {rules : Rules} {w after : List Char} {piece : Lexeme}
    (h : Reads rules w after.head? piece) {c : Char} {rest : List Char}
    (htext : w ++ after = c :: rest) : Lexeme.read rules c rest = .ok piece := by
  generalize hnext : after.head? = next at h
  cases h with
  | @keyword k _ _ spelled stops =>
    obtain ⟨d, hhead, hletter⟩ := (Keyword.isWord_of_spelledBy spelled).front
    obtain ⟨more, rfl⟩ := List.head?_eq_some_iff.mp hhead
    obtain ⟨rfl, _⟩ := List.cons.inj htext
    rw [read_letter hletter, ← htext, ofWord_of_spelledBy spelled (hnext ▸ stops)]
  | identifier word spared stops =>
    obtain ⟨d, hhead, hletter⟩ := word.front
    obtain ⟨more, rfl⟩ := List.head?_eq_some_iff.mp hhead
    obtain ⟨rfl, _⟩ := List.cons.inj htext
    rw [read_letter hletter, ← htext, ofWord_of_spares word spared (hnext ▸ stops)]
  | variableName parts stops =>
    obtain ⟨rfl, rfl⟩ := List.cons.inj htext
    rw [read_dollar, List.append_eq, wordLength_append parts (hnext ▸ stops), Nat.add_comm]
  | @number d more _ plain numerals stops =>
    have htake := takeWhile_append_of_stops numerals (hnext ▸ stops)
    rw [htext] at htake
    obtain ⟨rfl, _⟩ := List.cons.inj htext
    rw [read_numeral plain (numerals d List.mem_cons_self), htake]
    rfl
  | @string body _ inner =>
    rw [List.cons_append, List.append_assoc] at htext
    obtain ⟨rfl, rfl⟩ := List.cons.inj htext
    rw [read_quote, List.singleton_append, enclosed_append inner]
  | openString lenient inner =>
    rw [List.head?_eq_none_iff.mp hnext, List.append_nil] at htext
    obtain ⟨rfl, rfl⟩ := List.cons.inj htext
    rw [read_quote, lenient, enclosed_of_not_mem inner]
  | comment inner =>
    obtain ⟨more, rfl⟩ := List.head?_eq_some_iff.mp hnext
    obtain ⟨rfl, rfl⟩ := List.cons.inj htext
    rw [read_hash, List.append_eq, enclosed_append inner]
  | openComment lenient inner =>
    rw [List.head?_eq_none_iff.mp hnext, List.append_nil] at htext
    obtain ⟨rfl, rfl⟩ := List.cons.inj htext
    rw [read_hash, lenient, enclosed_of_not_mem inner]
  | @symbol s _ stops =>
    refine read_symbol ?_ rules
    rw [← htext, Symbol.leading?_append_iff, hnext]
    exact stops

/-- A text is divided where a word in it ends. -/
theorem exists_reads_ofWord {c : Char} (h : CharClass.isLetter c = true) (rules : Rules)
    (rest : List Char) :
    ∃ w after, c :: rest = w ++ after ∧
      Reads rules w after.head? (ofWord rules.keywords (c :: rest)) := by
  have hword := isWord_takeWhile h rest
  have hstops := stops_dropWhile CharClass.isWordPart (c :: rest)
  have hdivide : c :: rest = _ :=
    (List.takeWhile_append_dropWhile (p := CharClass.isWordPart)).symm
  generalize (c :: rest).takeWhile CharClass.isWordPart = w at *
  generalize (c :: rest).dropWhile CharClass.isWordPart = after at *
  rw [hdivide]
  by_cases hspared : rules.keywords.Spares w
  · refine ⟨w, after, rfl, ?_⟩
    rw [ofWord_of_spares hword hspared hstops]
    exact .identifier hword hspared hstops
  · cases hrule : rules.keywords with
    | wholeWord =>
      simp only [hrule, KeywordRule.Spares, not_forall, Bool.not_eq_false] at hspared
      obtain ⟨k, hk⟩ := hspared
      refine ⟨w, after, rfl, ?_⟩
      rw [ofWord_of_spelledBy hk fun _ => hstops]
      exact .keyword hk fun _ => hstops
    | leading =>
      -- what is left of the word stands behind the keyword
      simp only [hrule, KeywordRule.Spares, not_forall, not_not] at hspared
      obtain ⟨k, front, ⟨more, rfl⟩, hk⟩ := hspared
      refine ⟨front, more ++ after, List.append_assoc _ _ _, ?_⟩
      rw [List.append_assoc, ofWord_of_spelledBy hk fun hrule => by cases hrule]
      exact .keyword hk fun hwhole => by rw [hrule] at hwhole; cases hwhole

/-- Every piece that is read is one of these. -/
theorem exists_reads {rules : Rules} {c : Char} {rest : List Char} {piece : Lexeme}
    (h : Lexeme.read rules c rest = .ok piece) :
    ∃ w after, c :: rest = w ++ after ∧ Reads rules w after.head? piece := by
  cases front c with
  | word letter reads =>
    rw [reads] at h
    cases h
    exact exists_reads_ofWord letter rules rest
  | variableName mark reads =>
    rw [reads] at h
    cases h
    subst mark
    refine ⟨'$' :: rest.takeWhile CharClass.isWordPart, rest.dropWhile CharClass.isWordPart, ?_, ?_⟩
    · rw [List.cons_append, List.takeWhile_append_dropWhile]
    · rw [Nat.add_comm]
      exact .variableName (fun c hc => List.mem_takeWhile_imp hc) (stops_dropWhile _ _)
  | number plain numeral reads =>
    rw [reads] at h
    cases h
    have hall : ∀ d ∈ c :: rest.takeWhile CharClass.isNumeral, CharClass.isNumeral d = true := by
      intro d hd
      rcases List.mem_cons.mp hd with rfl | hd
      · exact numeral
      · exact List.mem_takeWhile_imp hd
    refine ⟨c :: rest.takeWhile CharClass.isNumeral, rest.dropWhile CharClass.isNumeral, ?_, ?_⟩
    · rw [List.cons_append, List.takeWhile_append_dropWhile]
    · rw [List.takeWhile_cons_of_pos numeral]
      exact .number plain hall (stops_dropWhile _ _)
  | string mark reads =>
    subst mark
    rw [reads] at h
    rcases enclosed_eq_ok h with ⟨body, after, rfl, hbody, rfl⟩ | ⟨hrule, hbody, rfl⟩
    · exact ⟨'"' :: (body ++ ['"']), after, by simp, .string hbody⟩
    · exact ⟨'"' :: rest, [], by simp, .openString hrule hbody⟩
  | comment mark reads =>
    subst mark
    rw [reads] at h
    rcases enclosed_eq_ok h with ⟨body, after, rfl, hbody, rfl⟩ | ⟨hrule, hbody, rfl⟩
    · exact ⟨'#' :: body, '\n' :: after, by simp, .comment hbody⟩
    · exact ⟨'#' :: rest, [], by simp, .openComment hrule hbody⟩
  | symbol plain reads =>
    rw [reads] at h
    split at h
    · next s hs =>
      cases h
      obtain ⟨after, hafter⟩ := Symbol.prefix_of_leading? hs
      refine ⟨_, after, hafter.symm, .symbol ?_⟩
      rwa [← hafter, Symbol.leading?_append_iff] at hs
    · cases h

/-- The characters of a piece and the one behind them determine the piece. -/
theorem Reads.unique {rules : Rules} {w after : List Char} {piece piece' : Lexeme}
    (h : Reads rules w after.head? piece) (h' : Reads rules w after.head? piece') :
    piece = piece' := by
  obtain ⟨c, more, rfl⟩ := List.exists_cons_of_ne_nil h.ne_nil
  exact Except.ok.inj ((h.read rfl).symm.trans (h'.read rfl))

end Lexeme

/-- The characters of a cut are read as its piece, and they do not begin with a blank. -/
theorem Cutting.exists_reads {rules : Rules} {text : List Char} {n : Nat} {cuts : List Cut}
    {ending : Ending} (h : Cutting rules text n cuts ending) {c : Cut} (hc : c ∈ cuts) :
    ∃ after, text.drop c.start = c.chars text ++ after ∧
      Lexeme.Reads rules (c.chars text) after.head? c.piece ∧
      ∃ d, (c.chars text).head? = some d ∧ CharClass.isBlank d = false := by
  induction h with
  | complete _ | broken _ _ => cases hc
  | @cut n s d piece cuts ending hlead hread _ ih =>
    rcases List.mem_cons.mp hc with rfl | hc
    · obtain ⟨w, after, htext, hreads⟩ := Lexeme.exists_reads hread
      rw [← hlead.drop_eq] at htext
      have hchars : Cut.chars text ⟨s, piece⟩ = w := by
        rw [Cut.chars, htext, hreads.length_eq, List.take_left]
      refine ⟨after, hchars ▸ htext, hchars ▸ hreads, d, ?_, hlead.solid⟩
      rw [Cut.chars, hlead.drop_eq, List.head?_take, if_neg (Lexeme.read_pos hread).ne']
      rfl
    · exact ih hc

end PhpTokens
