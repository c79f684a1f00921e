import PhpTokens.Proofs.Scan.Run

/-! A literal or a comment that the text ends before: an error under the strict rule, and under the
lenient rule one more token, which takes the rest of the text. Up to there the two runs are the
same, and behind there nothing is left that could differ. -/

namespace PhpTokens

/-- The kind of the piece that is left open, if a fault is about one. -/
def Fault.openKind? : Fault → Option Kind
  | .strayCharacter _ => none
  | .openString => some .stringLiteral
  | .openComment => some .comment

theorem Fault.openKind?_eq_none_iff {fault : Fault} :
    fault.openKind? = none ↔ ∃ c, fault = .strayCharacter c := by
  cases fault <;> simp [openKind?]

theorem Fault.openKind?_isSome_iff {fault : Fault} :
    fault.openKind?.isSome = true ↔ fault = .openString ∨ fault = .openComment := by
  cases fault <;> simp [openKind?]

namespace Lexeme

/-- What the lenient rule makes of a piece or a fault of the strict one, with `left` characters
behind the first. -/
def acceptOpen (left : Nat) : Except Fault Lexeme → Except Fault Lexeme
  | .ok piece => .ok piece
  | .error fault =>
    match fault.openKind? with
    | some kind => .ok { kind, length := 1 + left, isClosed := false }
    | none => .error fault

theorem enclosed_lenient {mark : Char} {kind : Kind} {fault : Fault} {around : Nat}
    (hkind : fault.openKind? = some kind) (text : List Char) :
    enclosed mark kind fault around .lenient text =
      acceptOpen text.length (enclosed mark kind fault around .strict text) := by
  by_cases h : mark ∈ text
  · simp only [enclosed, if_pos h, acceptOpen]
  · simp only [enclosed, if_neg h, acceptOpen, hkind]

theorem read_lenient (rules : Rules) (c : Char) (rest : List Char) :
    read { rules with unterminated := .lenient } c rest =
      acceptOpen rest.length (read { rules with unterminated := .strict } c rest) := by
  cases front c with
  | word _ reads | variableName _ reads | number _ _ reads =>
    rw [reads, reads]
    rfl
  | string _ reads | comment _ reads =>
    rw [reads, reads]
    exact enclosed_lenient rfl rest
  | symbol _ reads =>
    rw [reads, reads]
    cases Symbol.leading? (c :: rest) <;> rfl

end Lexeme

/-- A division without an open end is the same under both rules. -/
theorem Cutting.lenient_of_strict {rules : Rules} {text : List Char} {n : Nat} {cuts : List Cut}
    {ending : Ending} (h : Cutting { rules with unterminated := .strict } text n cuts ending)
    (hending : ∀ s fault, ending = .broken s fault → fault.openKind? = none) :
    Cutting { rules with unterminated := .lenient } text n cuts ending := by
  induction h with
  | complete hblank => exact .complete hblank
  | @broken n s c fault hlead hread =>
    refine .broken hlead ?_
    rw [Lexeme.read_lenient, hread]
    simp only [Lexeme.acceptOpen, hending s fault rfl]
  | cut hlead hread _ ih =>
    refine .cut hlead ?_ (ih hending)
    rw [Lexeme.read_lenient, hread]
    rfl

/-- A division that breaks at an open end is completed by one more cut. -/
theorem Cutting.lenient_of_open {rules : Rules} {text : List Char} {n s : Nat} {cuts : List Cut}
    {ending : Ending} {fault : Fault} {kind : Kind}
    (h : Cutting { rules with unterminated := .strict } text n cuts ending)
    (hending : ending = .broken s fault) (hkind : fault.openKind? = some kind) :
    ∃ piece : Lexeme, piece.kind = kind ∧ piece.isClosed = false ∧
      s + piece.length = text.length ∧
      Cutting { rules with unterminated := .lenient } text n (cuts ++ [⟨s, piece⟩])
        .complete := by
  induction h with
  | complete _ => cases hending
  | @broken n s c fault hlead hread =>
    cases hending
    have hlt := hlead.lt
    have hlength : s + (1 + (text.drop (s + 1)).length) = text.length := by
      rw [List.length_drop]
      omega
    have hpiece : Lexeme.read { rules with unterminated := .lenient } c (text.drop (s + 1)) =
        .ok { kind, length := 1 + (text.drop (s + 1)).length, isClosed := false } := by
      rw [Lexeme.read_lenient, hread]
      simp only [Lexeme.acceptOpen, hkind]
    refine ⟨_, rfl, rfl, hlength, .cut hlead hpiece ?_⟩
    -- the piece leaves nothing, not even a blank
    dsimp only
    rw [hlength]
    exact .complete (Blanks.refl (Nat.le_refl _))
  | cut hlead hread _ ih =>
    obtain ⟨piece, hpiece, hopen, hlength, hcut⟩ := ih hending
    refine ⟨piece, hpiece, hopen, hlength, .cut hlead ?_ hcut⟩
    rw [Lexeme.read_lenient, hread]
    rfl

/-- The token for the rest of a text, which begins at the index `s`. -/
def openToken (rules : Rules) (text : List Char) (kind : Kind) (s : Nat) : Token :=
  { kind
    text := String.ofList (text.drop s)
    place := match rules.anchor with
      | .start => rules.newlines.place text s (text.length - s)
      | .finish => rules.newlines.place text text.length (text.length - s)
    extent := ⟨Utf8.size (text.take s), Utf8.size text⟩ }

theorem token_eq_openToken (rules : Rules) {text : List Char} {s : Nat} {piece : Lexeme}
    (h : s + piece.length = text.length) :
    Cut.token rules text ⟨s, piece⟩ = openToken rules text piece.kind s := by
  have hlength : piece.length = text.length - s := by omega
  have htake : (text.drop s).take piece.length = text.drop s := by
    rw [hlength, ← List.length_drop, List.take_length]
  have hwhole : text.take text.length = text := List.take_length
  cases hanchor : rules.anchor <;>
    simp only [Cut.token, openToken, Cut.stop, hanchor, h, htake, hwhole, ← hlength]

/-- Either both scans end alike and at no open end, or the strict one stops at an open end and the
lenient one delivers the rest of the text as one token. -/
theorem tokens_agree_or_part (rules : Rules) (text : String) :
    (tokens { rules with unterminated := .lenient } text =
        tokens { rules with unterminated := .strict } text ∧
      ∀ error, tokens { rules with unterminated := .strict } text = .error error →
        ∃ c, error.fault = .strayCharacter c) ∨
    (∃ s fault kind, fault.openKind? = some kind ∧ text.toList[s]? = some fault.mark ∧
      tokens { rules with unterminated := .strict } text =
        .error ⟨fault, rules.newlines.line text.toList s, rules.newlines.column text.toList s⟩ ∧
      tokens { rules with unterminated := .lenient } text =
        .ok (emitted { rules with unterminated := .strict } text ++
          [openToken rules text.toList kind s, endOf rules text.toList])) := by
  obtain ⟨cuts, ending, hcut⟩ :=
    exists_cutting { rules with unterminated := .strict } (Nat.zero_le text.toList.length)
  have hstrict := tokens_of_cutting hcut
  cases ending with
  | complete =>
    have hlenient := tokens_of_cutting (hcut.lenient_of_strict fun _ _ h => by cases h)
    refine .inl ⟨hlenient.trans hstrict.symm, ?_⟩
    intro error herror
    cases hstrict.symm.trans herror
  | broken start fault =>
    cases hkind : fault.openKind? with
    | none =>
      have hlenient := tokens_of_cutting (hcut.lenient_of_strict fun _ _ h => by
        cases h
        exact hkind)
      refine .inl ⟨hlenient.trans hstrict.symm, ?_⟩
      intro error herror
      cases hstrict.symm.trans herror
      exact Fault.openKind?_eq_none_iff.mp hkind
    | some kind =>
      obtain ⟨piece, rfl, _, hlength, hopen⟩ := hcut.lenient_of_open rfl hkind
      refine .inr ⟨start, fault, _, hkind, (hcut.mark rfl).1, hstrict, ?_⟩
      rw [tokens_of_cutting hopen, emitted_of_cutting hcut, List.map_append, List.map_singleton,
        ← token_eq_openToken rules hlength]
      show Except.ok (_ ++ [_] ++ [_]) = Except.ok (_ ++ [] ++ [_, _])
      rw [List.append_nil, List.append_assoc]
      rfl

/-- Strict and lenient scans differ only in a piece that is left open at the end. What the strict
scan accepts, and every stray character it stops at, is the same under the lenient rule, which
stops at nothing else. Where the strict scan stops at an open literal or comment, the lenient scan
delivers the same tokens, then one for the rest of the text from the place of the error on, and
then the end. -/
theorem lenient_extends_strict (rules : Rules) (text : String) :
    (∀ ts, tokens { rules with unterminated := .strict } text = .ok ts →
      tokens { rules with unterminated := .lenient } text = .ok ts) ∧
    (∀ error c, error.fault = .strayCharacter c →
      (tokens { rules with unterminated := .strict } text = .error error ↔
        tokens { rules with unterminated := .lenient } text = .error error)) ∧
    (∀ error, tokens { rules with unterminated := .lenient } text = .error error →
      ∃ c, error.fault = .strayCharacter c) ∧
    (∀ error kind, tokens { rules with unterminated := .strict } text = .error error →
      error.fault.openKind? = some kind →
      ∃ s, text.toList[s]? = some error.fault.mark ∧
        error.line = rules.newlines.line text.toList s ∧
        error.column = rules.newlines.column text.toList s ∧
        (rules.anchor = .start → (openToken rules text.toList kind s).place =
          ⟨error.line, error.column, text.toList.length - s⟩) ∧
        tokens { rules with unterminated := .lenient } text =
          .ok (emitted { rules with unterminated := .strict } text ++
            [openToken rules text.toList kind s, endOf rules text.toList])) := by
  rcases tokens_agree_or_part rules text with
    ⟨hsame, hstray⟩ | ⟨s, fault, kind, hkind, hmark, hstrict, hlenient⟩
  · rw [hsame]
    refine ⟨fun _ h => h, fun _ _ _ => Iff.rfl, hstray, ?_⟩
    intro error kind herror hkind
    obtain ⟨c, hc⟩ := hstray error herror
    rw [hc] at hkind
    cases hkind
  · rw [hstrict, hlenient]
    refine ⟨?_, ?_, ?_, ?_⟩
    · intro ts hts
      cases hts
    · intro error c hfault
      constructor
      · intro herror
        cases herror
        cases hfault
        cases hkind
      · intro herror
        cases herror
    · intro error herror
      cases herror
    · intro error kind' herror hkind'
      cases herror
      obtain rfl := Option.some.inj (hkind.symm.trans hkind')
      refine ⟨s, hmark, rfl, rfl, ?_, rfl⟩
      intro hanchor
      rw [openToken, hanchor]
      rfl

end PhpTokens
