import Mathlib.Data.List.Forall2
import PhpTokens.Proofs.Scan.Run

/-! Keywords cut off the front of words, against words looked up as a whole. The two runs are out
of step inside a word that a keyword begins: there one cut is answered by several, or by an error at
an underscore that is left over behind a keyword or a number. They meet again where the word ends,
because everything that can be read inside a word stops there. -/

namespace PhpTokens

/-- The kinds of token that a word has as a whole. -/
def Kind.isWord : Kind → Bool
  | .keyword _ | .identifier => true
  | _ => false

/-- The kinds of token that are found inside a word. -/
def Kind.isWordPiece : Kind → Bool
  | .keyword _ | .identifier | .number => true
  | _ => false

theorem Kind.isWordPiece_of_isWord {kind : Kind} (h : kind.isWord = true) :
    kind.isWordPiece = true := by
  cases kind with
  | keyword _ | identifier => rfl
  | _ => cases h

namespace Lexeme

theorem ofWord_wholeWord_length (text : List Char) :
    (ofWord .wholeWord text).length = wordLength text := by
  simp only [ofWord]
  split <;> rfl

theorem ofWord_isWord (rule : KeywordRule) (text : List Char) :
    (ofWord rule text).kind.isWord = true := by
  cases rule <;> simp only [ofWord] <;> split <;> rfl

/-- Inside a word a piece of the word is read, or an underscore stands that begins nothing. -/
theorem read_in_word {c : Char} (h : CharClass.isWordPart c = true) (rules : Rules)
    (rest : List Char) :
    (∃ piece, read rules c rest = .ok piece ∧ piece.kind.isWordPiece = true ∧
      piece.length ≤ wordLength (c :: rest)) ∨
    (c = '_' ∧ read rules c rest = .error (.strayCharacter '_')) := by
  have hmark : c ∉ ['$', '"', '#'] := fun hmem => by
    simp [CharClass.isWordPart_marks c hmem] at h
  cases front c with
  | word _ reads =>
    have hword := ofWord_isWord rules.keywords (c :: rest)
    exact .inl ⟨_, reads rules rest, Kind.isWordPiece_of_isWord hword, ofWord_length_le _ _⟩
  | number _ _ reads => exact .inl ⟨_, reads rules rest, rfl, numeralLength_le _⟩
  | variableName mark _ | string mark _ | comment mark _ => simp [mark] at hmark
  | symbol plain reads =>
    obtain rfl := plain h
    exact .inr ⟨rfl, reads rules rest⟩

/-- The two ways to read a word agree, or a keyword is cut off a longer identifier. -/
theorem ofWord_leading (text : List Char) :
    (ofWord .leading text = ofWord .wholeWord text ∧
      ((ofWord .wholeWord text).kind = .identifier → ∀ k : Keyword, ¬ k.Begins text)) ∨
    (∃ k : Keyword, k.Begins text ∧ (ofWord .wholeWord text).kind = .identifier ∧
      ofWord .leading text = { kind := .keyword k, length := k.spelling.length }) := by
  have hbegins : ∀ k, Keyword.ofWord? (text.take (wordLength text)) = some k →
      k.Begins text := fun k hk =>
    ⟨_, List.take_prefix _ _, Keyword.ofWord?_eq_some_iff.mp hk⟩
  cases hleading : Keyword.leading? text with
  | none =>
    have hnone := Keyword.leading?_eq_none_iff.mp hleading
    cases hword : Keyword.ofWord? (text.take (wordLength text)) with
    | none => exact .inl ⟨by simp only [ofWord, hleading, hword], fun _ => hnone⟩
    | some k => exact absurd (hbegins k hword) (hnone k)
  | some k =>
    have hk := Keyword.leading?_eq_some_iff.mp hleading
    cases hword : Keyword.ofWord? (text.take (wordLength text)) with
    | none => exact .inr ⟨k, hk, by simp only [ofWord, hword], by simp only [ofWord, hleading]⟩
    | some k' =>
      obtain rfl := hk.unique (hbegins k' hword)
      have hlength := Keyword.length_of_spelledBy (Keyword.ofWord?_eq_some_iff.mp hword)
      rw [List.length_take, Nat.min_eq_left (wordLength_le text)] at hlength
      refine .inl ⟨?_, by simp [ofWord, hword]⟩
      simp only [ofWord, hleading, hword]
      rw [hlength]

theorem read_keywords {c : Char} (h : CharClass.isLetter c = false) (rules : Rules)
    (rule : KeywordRule) (rest : List Char) :
    read { rules with keywords := rule } c rest = read rules c rest := by
  cases front c with
  | word letter _ => simp [letter] at h
  | variableName _ reads | number _ _ reads | string _ reads | comment _ reads
  | symbol _ reads => rw [reads, reads]

theorem isLetter_of_isWord {rules : Rules} {c : Char} {rest : List Char} {piece : Lexeme}
    (h : read rules c rest = .ok piece) (hkind : piece.kind.isWord = true) :
    CharClass.isLetter c = true := by
  cases front c with
  | word letter _ => exact letter
  | variableName _ reads | number _ _ reads =>
    rw [reads] at h
    cases h
    cases hkind
  | string _ reads | comment _ reads =>
    simp [enclosed_kind (reads rules rest ▸ h), Kind.isWord] at hkind
  | symbol _ reads =>
    rw [reads] at h
    split at h <;> cases h
    cases hkind

end Lexeme

/-- Cuts that follow one another without a gap from index `i` to index `e`. -/
def Joined (i : Nat) : List Cut → Nat → Prop
  | [], e => i = e
  | c :: cuts, e => c.start = i ∧ c.start < c.stop ∧ Joined c.stop cuts e

/-- A run that reaches `n` makes the cuts given and goes on as it would if it had begun at `e`. -/
def Continues (rules : Rules) (text : List Char) (n : Nat) (pieces : List Cut) (e : Nat) : Prop :=
  ∀ cuts ending, Cutting rules text e cuts ending → Cutting rules text n (pieces ++ cuts) ending

/-- A run that reaches `n` stops at an underscore from `i` up to `e`. -/
def Breaks (rules : Rules) (text : List Char) (n i e : Nat) : Prop :=
  ∃ pieces j, i ≤ j ∧ j < e ∧ text[j]? = some '_' ∧
    Cutting rules text n pieces (.broken j (.strayCharacter '_'))

/-- A run that reaches `i` passes through pieces of a word to `e` and goes on there. -/
structure Passes (rules : Rules) (text : List Char) (i : Nat) (pieces : List Cut) (e : Nat) :
    Prop where
  joined : Joined i pieces e
  kinds : ∀ d ∈ pieces, d.piece.kind.isWordPiece = true
  continues : Continues rules text i pieces e

theorem continues_cut {rules : Rules} {text : List Char} {n s : Nat} {c : Char} {piece : Lexeme}
    (hlead : Lead text n s c) (hread : Lexeme.read rules c (text.drop (s + 1)) = .ok piece) :
    Continues rules text n [⟨s, piece⟩] (s + piece.length) := by
  intro cuts ending hcut
  exact .cut hlead hread hcut

theorem Continues.append {rules : Rules} {text : List Char} {n m e : Nat} {front back : List Cut}
    (hfront : Continues rules text n front m) (hback : Continues rules text m back e) :
    Continues rules text n (front ++ back) e := by
  intro cuts ending hcut
  rw [List.append_assoc]
  exact hfront _ _ (hback _ _ hcut)

theorem Continues.breaks {rules : Rules} {text : List Char} {n m i e : Nat} {front : List Cut}
    (hfront : Continues rules text n front m) (h : Breaks rules text m i e) :
    Breaks rules text n i e := by
  obtain ⟨pieces, j, hi, hj, hchar, hcut⟩ := h
  exact ⟨front ++ pieces, j, hi, hj, hchar, hfront _ _ hcut⟩

theorem Breaks.mono {rules : Rules} {text : List Char} {n i i' e : Nat}
    (h : Breaks rules text n i e) (hi' : i' ≤ i) : Breaks rules text n i' e := by
  obtain ⟨pieces, j, hi, hj, hchar, hcut⟩ := h
  exact ⟨pieces, j, Nat.le_trans hi' hi, hj, hchar, hcut⟩

theorem Passes.refl (rules : Rules) (text : List Char) (i : Nat) : Passes rules text i [] i where
  joined := rfl
  kinds := by simp
  continues _ _ h := h

theorem Passes.cons {rules : Rules} {text : List Char} {i e : Nat} {c : Char} {piece : Lexeme}
    {pieces : List Cut} (hlead : Lead text i i c)
    (hread : Lexeme.read rules c (text.drop (i + 1)) = .ok piece)
    (hkind : piece.kind.isWordPiece = true) (h : Passes rules text (i + piece.length) pieces e) :
    Passes rules text i (⟨i, piece⟩ :: pieces) e where
  joined := ⟨rfl, Nat.lt_add_of_pos_right (Lexeme.read_pos hread), h.joined⟩
  kinds := by
    intro d hd
    rcases List.mem_cons.mp hd with rfl | hd
    · exact hkind
    · exact h.kinds d hd
  continues := (continues_cut hlead hread).append h.continues

/-- Where a word has characters left, the next piece begins. -/
theorem lead_of_wordLength_pos {text : List Char} {i : Nat}
    (h : 0 < Lexeme.wordLength (text.drop i)) :
    ∃ c, Lead text i i c ∧ CharClass.isWordPart c = true := by
  obtain ⟨c, rest, hdrop, hpart⟩ := Lexeme.exists_of_wordLength_pos h
  have hc : text[i]? = some c := by
    rw [← List.head?_drop, hdrop]
    rfl
  refine ⟨c, ⟨⟨Nat.le_refl _, ?_, ?_⟩, hc, CharClass.isBlank_of_isWordPart hpart⟩, hpart⟩
  · exact Nat.le_of_lt (List.getElem?_eq_some_iff.mp hc).1
  · simp

/-- What is left of a word is passed piece by piece up to its end, or breaks at an underscore. -/
theorem passes_word (rules : Rules) (text : List Char) (i : Nat) :
    (∃ pieces, Passes rules text i pieces (i + Lexeme.wordLength (text.drop i))) ∨
      Breaks rules text i i (i + Lexeme.wordLength (text.drop i)) := by
  -- by the number of characters that the word has left
  induction hk : Lexeme.wordLength (text.drop i) using Nat.strongRecOn generalizing i with
  | ind k ih =>
    rcases Nat.eq_zero_or_pos k with rfl | hpos
    · exact .inl ⟨[], Passes.refl rules text i⟩
    obtain ⟨c, hlead, hpart⟩ := lead_of_wordLength_pos (hk ▸ hpos)
    rcases Lexeme.read_in_word hpart rules (text.drop (i + 1)) with hpiece | ⟨rfl, hread⟩
    · obtain ⟨piece, hread, hkind, hlength⟩ := hpiece
      rw [← hlead.drop_eq, hk] at hlength
      have hadvance := Lexeme.read_pos hread
      have hleft : Lexeme.wordLength (text.drop (i + piece.length)) = k - piece.length := by
        rw [← List.drop_drop, Lexeme.wordLength_drop (by omega), hk]
      have hend : i + piece.length + (k - piece.length) = i + k := by omega
      have hrest := ih _ (by omega) _ hleft
      rw [hend] at hrest
      rcases hrest with ⟨pieces, hpass⟩ | hbreak
      · exact .inl ⟨_, hpass.cons hlead hread hkind⟩
      · exact .inr (((continues_cut hlead hread).breaks hbreak).mono (Nat.le_add_right _ _))
    · exact .inr ⟨[], i, Nat.le_refl _, by omega, hlead.here, .broken hlead hread⟩

/-- What becomes of a cut when leading keywords are cut off: it is kept, or it is an identifier that
a keyword begins, and pieces of a word take its place. -/
inductive Resplit (text : List Char) (c : Cut) : List Cut → Prop where
  | kept (bare : c.piece.kind = .identifier → ∀ k : Keyword, ¬ k.Begins (c.chars text)) :
      Resplit text c [c]
  | split {k : Keyword} {first : Cut} {more : List Cut}
      (identifier : c.piece.kind = .identifier) (begins : k.Begins (c.chars text))
      (keyword : first.piece.kind = .keyword k)
      (joined : Joined c.start (first :: more) c.stop)
      (kinds : ∀ d ∈ first :: more, d.piece.kind.isWordPiece = true) :
      Resplit text c (first :: more)

theorem chars_wholeWord (text : List Char) (s : Nat) :
    Cut.chars text ⟨s, Lexeme.ofWord .wholeWord (text.drop s)⟩ =
      (text.drop s).takeWhile CharClass.isWordPart := by
  rw [Cut.chars, Lexeme.ofWord_wholeWord_length, Lexeme.take_wordLength]

/-- The run that cuts leading keywords off and reaches `n` answers a cut of the other. -/
def Answers (rules : Rules) (text : List Char) (n : Nat) (c : Cut) : Prop :=
  (∃ group, Resplit text c group ∧
    Continues { rules with keywords := .leading } text n group c.stop) ∨
  (c.piece.kind = .identifier ∧
    Breaks { rules with keywords := .leading } text n (c.start + 1) c.stop)

/-- What begins with no letter is read alike. -/
theorem answers_other {rules : Rules} {text : List Char} {n s : Nat} {c : Char} {piece : Lexeme}
    (hletter : CharClass.isLetter c = false) (hlead : Lead text n s c)
    (hread : Lexeme.read { rules with keywords := .wholeWord } c (text.drop (s + 1)) = .ok piece) :
    Answers rules text n ⟨s, piece⟩ := by
  have hbare : piece.kind ≠ .identifier := by
    intro hkind
    have hword := Lexeme.isLetter_of_isWord hread (hkind ▸ rfl)
    rw [hletter] at hword
    cases hword
  rw [Lexeme.read_keywords hletter, ← Lexeme.read_keywords hletter rules .leading] at hread
  exact .inl ⟨_, .kept fun hkind => absurd hkind hbare, continues_cut hlead hread⟩

/-- A word is kept, or a keyword is cut off and the rest of the word is passed. -/
theorem answers_word {rules : Rules} {text : List Char} {n s : Nat} {c : Char}
    (hletter : CharClass.isLetter c = true) (hlead : Lead text n s c) :
    Answers rules text n ⟨s, Lexeme.ofWord .wholeWord (text.drop s)⟩ := by
  have hread := Lexeme.read_letter hletter { rules with keywords := .leading } (text.drop (s + 1))
  rw [← hlead.drop_eq] at hread
  rcases Lexeme.ofWord_leading (text.drop s) with ⟨hsame, hbare⟩ | ⟨k, hk, hident, hpiece⟩
  · rw [hsame] at hread
    refine .inl ⟨_, .kept fun hkind k hk => ?_, continues_cut hlead hread⟩
    rw [chars_wholeWord, Keyword.begins_takeWhile_iff] at hk
    exact hbare hkind k hk
  · rw [hpiece] at hread
    have hpos : 0 < k.spelling.length := Lexeme.read_pos hread
    have hle := Lexeme.length_le_of_begins hk
    have hend : s + k.spelling.length +
        Lexeme.wordLength (text.drop (s + k.spelling.length)) =
          Cut.stop ⟨s, Lexeme.ofWord .wholeWord (text.drop s)⟩ := by
      show _ = s + (Lexeme.ofWord .wholeWord (text.drop s)).length
      rw [← List.drop_drop, Lexeme.wordLength_drop hle, Lexeme.ofWord_wholeWord_length]
      omega
    have hkeyword := continues_cut hlead hread
    have hrest := passes_word { rules with keywords := .leading } text (s + k.spelling.length)
    rw [hend] at hrest
    rcases hrest with ⟨pieces, hpass⟩ | hbreak
    · refine .inl ⟨_, .split hident ?_ rfl ?_ ?_, hkeyword.append hpass.continues⟩
      · rw [chars_wholeWord]
        exact Keyword.begins_takeWhile_iff.mpr hk
      · exact ⟨rfl, Nat.lt_add_of_pos_right hpos, hpass.joined⟩
      · intro d hd
        rcases List.mem_cons.mp hd with rfl | hd
        · rfl
        · exact hpass.kinds d hd
    · exact .inr ⟨hident, (hkeyword.breaks hbreak).mono (Nat.add_le_add_left hpos s)⟩

theorem answers_cut {rules : Rules} {text : List Char} {n s : Nat} {c : Char} {piece : Lexeme}
    (hlead : Lead text n s c)
    (hread : Lexeme.read { rules with keywords := .wholeWord } c (text.drop (s + 1)) = .ok piece) :
    Answers rules text n ⟨s, piece⟩ := by
  cases hletter : CharClass.isLetter c with
  | false => exact answers_other hletter hlead hread
  | true =>
    rw [Lexeme.read_letter hletter, ← hlead.drop_eq] at hread
    cases hread
    exact answers_word hletter hlead

/-- The run that cuts leading keywords off answers the other cut by cut and ends as it does, or it
stops at an underscore inside an identifier. -/
theorem Cutting.resplit {rules : Rules} {text : List Char} {n : Nat} {cuts : List Cut}
    {ending : Ending} (h : Cutting { rules with keywords := .wholeWord } text n cuts ending) :
    (∃ groups, List.Forall₂ (Resplit text) cuts groups ∧
      Cutting { rules with keywords := .leading } text n groups.flatten ending) ∨
    (∃ c ∈ cuts, c.piece.kind = .identifier ∧
      Breaks { rules with keywords := .leading } text n (c.start + 1) c.stop) := by
  induction h with
  | complete hblank => exact .inl ⟨[], .nil, .complete hblank⟩
  | @broken n s c fault hlead hread =>
    have hletter : CharClass.isLetter c = false := by
      cases hletter : CharClass.isLetter c with
      | false => rfl
      | true => cases (Lexeme.read_letter hletter _ _).symm.trans hread
    rw [Lexeme.read_keywords hletter, ← Lexeme.read_keywords hletter rules .leading] at hread
    exact .inl ⟨[], .nil, .broken hlead hread⟩
  | @cut n s c piece cuts ending hlead hread _ ih =>
    rcases answers_cut hlead hread with ⟨group, hgroup, hcontinue⟩ | ⟨hkind, hbreak⟩
    · rcases ih with ⟨groups, hgroups, hcut⟩ | ⟨d, hd, hkind, hbreak⟩
      · exact .inl ⟨group :: groups, .cons hgroup hgroups, hcontinue _ _ hcut⟩
      · exact .inr ⟨d, List.mem_cons_of_mem _ hd, hkind, hcontinue.breaks hbreak⟩
    · exact .inr ⟨_, List.mem_cons_self, hkind, hbreak⟩

/-- Tokens that follow one another without a gap from byte `p` to byte `q`. -/
def Abut (p : Nat) : List Token → Nat → Prop
  | [], q => p = q
  | t :: ts, q => t.extent.start = p ∧ t.extent.start < t.extent.stop ∧ Abut t.extent.stop ts q

/-- What becomes of a token when leading keywords are cut off: only a word is replaced, by one or
more pieces of a word that tile it; a keyword stays, and an identifier stays exactly if no reserved
word stands at its front. -/
structure Recut (t : Token) (us : List Token) : Prop where
  other : t.kind.isWord = false → us = [t]
  tiled : t.kind.isWord = true →
    us ≠ [] ∧ Abut t.extent.start us t.extent.stop ∧ ∀ u ∈ us, u.kind.isWordPiece = true
  keyword : t.kind.isReserved = true → us = [t]
  identifier : t.kind = .identifier → (us = [t] ↔ ∀ k : Keyword, ¬ k.Begins t.text.toList)

/-- The error at an underscore strictly inside an identifier. -/
def StrayUnderscore (rules : Rules) (text : List Char) (ts : List Token) (error : ScanError) :
    Prop :=
  ∃ t ∈ ts, t.kind = .identifier ∧ ∃ j,
    t.extent.start < Utf8.size (text.take j) ∧ Utf8.size (text.take j) < t.extent.stop ∧
    text[j]? = some '_' ∧
    error = ⟨.strayCharacter '_', rules.newlines.line text j, rules.newlines.column text j⟩

theorem Joined.le {i e : Nat} {cuts : List Cut} (h : Joined i cuts e) : i ≤ e := by
  induction cuts generalizing i with
  | nil => exact Nat.le_of_eq h
  | cons c cuts ih =>
    obtain ⟨rfl, hlt, hrest⟩ := h
    exact Nat.le_trans (Nat.le_of_lt hlt) (ih hrest)

theorem Joined.abut {i e : Nat} {cuts : List Cut} (h : Joined i cuts e) (rules : Rules)
    {text : List Char} (he : e ≤ text.length) :
    Abut (Utf8.size (text.take i)) (cuts.map (Cut.token rules text))
      (Utf8.size (text.take e)) := by
  induction cuts generalizing i with
  | nil => rw [show i = e from h]; rfl
  | cons c cuts ih =>
    obtain ⟨rfl, hlt, hrest⟩ := h
    exact ⟨rfl, Utf8.size_take_lt hlt (Nat.le_trans hrest.le he), ih hrest⟩

theorem Resplit.recut {text : List Char} {c : Cut} {group : List Cut} (h : Resplit text c group)
    (rules : Rules) (hlt : c.start < c.stop) (hstop : c.stop ≤ text.length) :
    Recut (c.token rules text) (group.map (Cut.token rules text)) := by
  cases h with
  | kept bare =>
    have habut : Joined c.start [c] c.stop := ⟨rfl, hlt, rfl⟩
    refine ⟨fun _ => rfl, fun hword => ⟨by simp, habut.abut rules hstop, ?_⟩, fun _ => rfl, ?_⟩
    · intro u hu
      rw [List.mem_singleton.mp hu]
      exact Kind.isWordPiece_of_isWord hword
    · intro hkind
      refine ⟨fun _ => ?_, fun _ => rfl⟩
      rw [Cut.token, String.toList_ofList]
      exact bare hkind
  | @split k first more identifier begins keyword joined kinds =>
    have hkind : (c.token rules text).kind = .identifier := identifier
    refine ⟨?_, fun _ => ⟨by simp, joined.abut rules hstop, ?_⟩, ?_, fun _ => ⟨?_, ?_⟩⟩
    · rw [hkind]
      intro hword
      cases hword
    · intro u hu
      obtain ⟨d, hd, rfl⟩ := List.mem_map.mp hu
      exact kinds d hd
    · rw [hkind]
      intro hreserved
      cases hreserved
    · intro hsame
      have hfirst : first.token rules text = c.token rules text := (List.cons.inj hsame).1
      have hclash : first.piece.kind = c.piece.kind := congrArg Token.kind hfirst
      rw [keyword, identifier] at hclash
      cases hclash
    · intro hnone
      refine absurd begins ?_
      have htext := hnone k
      rwa [Cut.token, String.toList_ofList] at htext

theorem recut_map {text : List Char} {cuts : List Cut} {groups : List (List Cut)}
    (h : List.Forall₂ (Resplit text) cuts groups) (rules : Rules)
    (hbounds : ∀ c ∈ cuts, c.start < c.stop ∧ c.stop ≤ text.length) :
    List.Forall₂ Recut (cuts.map (Cut.token rules text))
      (groups.map (List.map (Cut.token rules text))) := by
  induction h with
  | nil => exact .nil
  | @cons c group cuts groups hgroup _ ih =>
    obtain ⟨hlt, hle⟩ := hbounds c List.mem_cons_self
    exact .cons (hgroup.recut rules hlt hle)
      (ih fun d hd => hbounds d (List.mem_cons_of_mem _ hd))

theorem recut_endOf (rules : Rules) (text : List Char) :
    Recut (endOf rules text) [endOf rules text] where
  other _ := rfl
  tiled h := by cases h
  keyword _ := rfl
  identifier h := by cases h

/-- An underscore inside an identifier, as the error of one run and a token of the other. -/
theorem strayUnderscore_of_cut {text : List Char} {c : Cut} {j : Nat} {rules : Rules}
    {ts : List Token} (hc : c.token rules text ∈ ts) (hkind : c.piece.kind = .identifier)
    (hj : c.start < j) (hlt : j < c.stop) (hstop : c.stop ≤ text.length)
    (hchar : text[j]? = some '_') :
    StrayUnderscore rules text ts
      ⟨.strayCharacter '_', rules.newlines.line text j, rules.newlines.column text j⟩ :=
  ⟨_, hc, hkind, j, Utf8.size_take_lt hj (Nat.le_trans (Nat.le_of_lt hlt) hstop),
    Utf8.size_take_lt hlt hstop, hchar, rfl⟩

/-- Cutting leading keywords off refines looking words up. If the one scan succeeds, so does the
other, and its tokens are those of the other with words recut. If the look-up succeeds, the cutting
can fail only at an underscore inside an identifier; if the look-up fails, the cutting fails alike
behind recut tokens, or earlier at such an underscore. -/
theorem leading_refines_wholeWord (rules : Rules) (text : String) :
    (∀ us, tokens { rules with keywords := .leading } text = .ok us →
      ∃ ts groups, tokens { rules with keywords := .wholeWord } text = .ok ts ∧
        List.Forall₂ Recut ts groups ∧ us = groups.flatten) ∧
    (∀ ts, tokens { rules with keywords := .wholeWord } text = .ok ts →
      (∃ us, tokens { rules with keywords := .leading } text = .ok us) ∨
      ∃ error, tokens { rules with keywords := .leading } text = .error error ∧
        StrayUnderscore rules text.toList ts error) ∧
    (∀ error, tokens { rules with keywords := .wholeWord } text = .error error →
      (tokens { rules with keywords := .leading } text = .error error ∧
        ∃ groups,
          List.Forall₂ Recut (emitted { rules with keywords := .wholeWord } text) groups ∧
          emitted { rules with keywords := .leading } text = groups.flatten) ∨
      ∃ error', tokens { rules with keywords := .leading } text = .error error' ∧
        StrayUnderscore rules text.toList
          (emitted { rules with keywords := .wholeWord } text) error') := by
  obtain ⟨cuts, ending, hcut⟩ :=
    exists_cutting { rules with keywords := .wholeWord } (Nat.zero_le text.toList.length)
  have hbounds := hcut.inner
  have hwhole := tokens_of_cutting hcut
  have hbefore := emitted_of_cutting hcut
  rcases hcut.resplit with ⟨groups, hgroups, hlead⟩ | ⟨c, hc, hkind, hbreak⟩
  · have hleading := tokens_of_cutting hlead
    have hrecut := recut_map hgroups rules fun c hc => (hbounds c hc).2
    cases ending with
    | complete =>
      refine ⟨fun us hus => ?_, fun ts _ => .inl ⟨_, hleading⟩, fun error herror => ?_⟩
      · refine ⟨_, _, hwhole, List.rel_append hrecut (.cons (recut_endOf rules _) .nil), ?_⟩
        rw [List.flatten_append, ← List.map_flatten]
        exact (Except.ok.inj (hleading.symm.trans hus)).symm
      · cases hwhole.symm.trans herror
    | broken start fault =>
      have hsame := List.append_nil (cuts.map (Cut.token rules text.toList))
      refine ⟨fun us hus => ?_, fun ts hts => ?_, fun error herror =>
        .inl ⟨?_, groups.map (List.map (Cut.token rules text.toList)), ?_, ?_⟩⟩
      · cases hleading.symm.trans hus
      · cases hwhole.symm.trans hts
      · exact hleading.trans (hwhole.symm.trans herror)
      · exact (hbefore.trans hsame).symm ▸ hrecut
      · rw [emitted_of_cutting hlead, ← List.map_flatten]
        exact List.append_nil _
  · obtain ⟨pieces, j, hj, hlt, hchar, hbroken⟩ := hbreak
    have hleading := tokens_of_cutting hbroken
    obtain ⟨_, _, hstop⟩ := hbounds c hc
    have hmem : c.token rules text.toList ∈
        emitted { rules with keywords := .wholeWord } text := by
      rw [hbefore]
      exact List.mem_append_left _ (List.mem_map_of_mem hc)
    have hstray := strayUnderscore_of_cut hmem hkind hj hlt hstop hchar
    refine ⟨fun us hus => ?_, fun ts hts => .inr ⟨_, hleading, ?_⟩,
      fun error _ => .inr ⟨_, hleading, hstray⟩⟩
    · cases hleading.symm.trans hus
    · exact emitted_of_tokens hts ▸ hstray

end PhpTokens
