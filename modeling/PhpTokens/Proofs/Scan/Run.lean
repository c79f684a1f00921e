import PhpTokens.Proofs.Scan.Cutting

/-! The steps of the scanner are those of the division of its text: one for each cut and one for
the ending. What a scan delivers, and what it has delivered before it stops, is read off there. -/

namespace PhpTokens

/-- The scanner that has passed the first `n` characters of a text. -/
def Scanner.behind (rules : Rules) (text : List Char) (n : Nat) : Scanner :=
  { rules, reader := .behind rules.newlines text n }

/-- The step that delivers the token of a cut. -/
def Cut.step (rules : Rules) (text : List Char) (c : Cut) : Step :=
  { outcome := .ok (c.token rules text)
    events := Scanner.openEndEvents c.piece (.behind rules.newlines text c.start) ++
      [.token c.piece.kind (c.token rules text).place.line (c.token rules text).place.column]
    scanner := .behind rules text c.stop }

/-- The step that delivers the ending. An open string is found behind its quote. -/
def Ending.step (rules : Rules) (text : List Char) : Ending → Step
  | .complete => ⟨.ok (endOf rules text), [], .behind rules text text.length⟩
  | .broken start fault =>
    let error : ScanError := ⟨fault, rules.newlines.line text start,
      rules.newlines.column text start⟩
    { outcome := .error error
      events := [.failed error]
      scanner := { Scanner.behind rules text (start + fault.passed) with failure := some error } }

/-- All that the requests for tokens deliver up to the end of the text or the first error. -/
def emitted (rules : Rules) (text : String) : List Token :=
  (Scanner.start rules text).steps.filterMap (·.outcome.toOption)

theorem Scanner.start_eq_behind (rules : Rules) (text : String) :
    start rules text = behind rules text.toList 0 := by
  rw [start, behind, TextReader.start_eq_behind]

theorem Ending.step_isLast (rules : Rules) (text : List Char) (ending : Ending) :
    (ending.step rules text).isLast = true := by
  cases ending <;> rfl

namespace Scanner

theorem passWhile_behind {text : List Char} {n : Nat} (h : n ≤ text.length) (rules : Rules) :
    (behind rules text n).reader.passWhile CharClass.isBlank =
      .behind rules.newlines text (solidFrom text n) :=
  TextReader.passWhile_behind h rules.newlines CharClass.isBlank

theorem next_complete {text : List Char} {n : Nat} (h : Blanks text n text.length)
    (rules : Rules) :
    (behind rules text n).next = Ending.complete.step rules text := by
  have hpass := passWhile_behind h.le rules
  rw [h.solidFrom_eq] at hpass
  have hunread : ((behind rules text n).reader.passWhile CharClass.isBlank).unread = [] := by
    rw [hpass]
    exact List.drop_length
  rw [next_at_end rfl hunread, hpass]
  simp [Ending.step, endToken, endOf, behind, TextReader.behind, TextReader.place,
    NewlineRule.place]

theorem unread_lead {text : List Char} {n s : Nat} {c : Char} (h : Lead text n s c)
    (rules : Rules) :
    ((behind rules text n).reader.passWhile CharClass.isBlank).unread =
      c :: text.drop (s + 1) := by
  rw [passWhile_behind (Nat.le_trans h.blanks.le h.blanks.stop_le), h.solidFrom_eq]
  exact h.drop_eq

theorem next_broken {text : List Char} {n s : Nat} {c : Char} {fault : Fault}
    (h : Lead text n s c) {rules : Rules}
    (hread : Lexeme.read rules c (text.drop (s + 1)) = .error fault) :
    (behind rules text n).next = (Ending.broken s fault).step rules text := by
  have hpass := passWhile_behind (Nat.le_trans h.blanks.le h.blanks.stop_le) rules
  rw [h.solidFrom_eq] at hpass
  have hlt := h.lt
  have hfault : s + fault.passed ≤ text.length := by
    cases fault <;> simp only [Fault.passed] <;> omega
  rw [next_of_fault rfl (unread_lead h rules) hread, hpass, stepOfFault,
    TextReader.move_behind hfault]
  rfl

theorem next_cut {text : List Char} {n s : Nat} {c : Char} {piece : Lexeme}
    (h : Lead text n s c) {rules : Rules}
    (hread : Lexeme.read rules c (text.drop (s + 1)) = .ok piece) :
    (behind rules text n).next = Cut.step rules text ⟨s, piece⟩ := by
  have hpass := passWhile_behind (Nat.le_trans h.blanks.le h.blanks.stop_le) rules
  rw [h.solidFrom_eq] at hpass
  rw [next_of_piece rfl (unread_lead h rules) hread, hpass, stepOfPiece,
    TextReader.move_behind (h.stop_le hread)]
  cases hanchor : rules.anchor <;>
    simp [Cut.step, Cut.token, Cut.stop, tokenBetween, hanchor, behind, TextReader.behind,
      TextReader.place, NewlineRule.place]

/-- The steps of a scanner are those of the division from its index on. -/
theorem steps_behind {rules : Rules} {text : List Char} {n : Nat} {cuts : List Cut}
    {ending : Ending} (h : Cutting rules text n cuts ending) :
    (behind rules text n).steps =
      cuts.map (Cut.step rules text) ++ [ending.step rules text] := by
  induction h with
  | complete hblank =>
    have hnext := next_complete hblank rules
    rw [steps_of_last (hnext ▸ Ending.step_isLast rules text _), hnext]
    rfl
  | broken hlead hread =>
    have hnext := next_broken hlead hread
    rw [steps_of_last (hnext ▸ Ending.step_isLast rules text _), hnext]
    rfl
  | @cut n s c piece cuts ending hlead hread _ ih =>
    have hnext := next_cut hlead hread
    have hkind := Lexeme.kind_ne_endOfInput hread
    have hlast : (behind rules text n).next.isLast = false := by
      rw [hnext]
      simpa [Step.isLast, Cut.step, Cut.token] using hkind
    rw [steps_of_not_last hlast, hnext, List.map_cons, List.cons_append]
    exact congrArg _ ih

end Scanner

theorem mapM_outcome (rules : Rules) (text : List Char) (cuts : List Cut) (last : Step) :
    (cuts.map (Cut.step rules text) ++ [last]).mapM (·.outcome) =
      last.outcome.map fun token => cuts.map (Cut.token rules text) ++ [token] := by
  induction cuts with
  | nil => cases h : last.outcome <;> simp [h, Except.map, pure, Except.pure, bind, Except.bind]
  | cons c cuts ih =>
    rw [List.map_cons, List.cons_append, List.mapM_cons, ih]
    cases h : last.outcome <;>
      simp [Cut.step, Except.map, pure, Except.pure, bind, Except.bind]

/-- The tokens of a text are those of its cuts and the end of the text. -/
theorem tokens_of_cutting {rules : Rules} {text : String} {cuts : List Cut} {ending : Ending}
    (h : Cutting rules text.toList 0 cuts ending) :
    tokens rules text = (ending.outcome rules text.toList).map fun token =>
      cuts.map (Cut.token rules text.toList) ++ [token] := by
  rw [tokens, Scanner.drain, Scanner.start_eq_behind, Scanner.steps_behind h, mapM_outcome]
  cases ending <;> rfl

theorem emitted_of_cutting {rules : Rules} {text : String} {cuts : List Cut} {ending : Ending}
    (h : Cutting rules text.toList 0 cuts ending) :
    emitted rules text = cuts.map (Cut.token rules text.toList) ++
      (ending.outcome rules text.toList).toOption.toList := by
  have hcuts : cuts.filterMap ((·.outcome.toOption) ∘ Cut.step rules text.toList) =
      cuts.map (Cut.token rules text.toList) := by
    rw [← List.filterMap_eq_map]
    rfl
  rw [emitted, Scanner.start_eq_behind, Scanner.steps_behind h, List.filterMap_append,
    List.filterMap_map, hcuts]
  cases ending <;> rfl

/-- What is delivered in front of the end of the text comes from a cut. -/
theorem exists_cut_of_emitted {rules : Rules} {text : String} {cuts : List Cut} {ending : Ending}
    (h : Cutting rules text.toList 0 cuts ending) {t : Token} (ht : t ∈ emitted rules text)
    (hkind : t.kind ≠ .endOfInput) : ∃ c ∈ cuts, t = c.token rules text.toList := by
  rw [emitted_of_cutting h] at ht
  rcases List.mem_append.mp ht with ht | ht
  · obtain ⟨c, hc, rfl⟩ := List.mem_map.mp ht
    exact ⟨c, hc, rfl⟩
  · cases ending with
    | complete => exact absurd (List.mem_singleton.mp ht ▸ rfl) hkind
    | broken start fault => cases ht

/-- A scan that succeeds has delivered what it returns. -/
theorem emitted_of_tokens {rules : Rules} {text : String} {ts : List Token}
    (h : tokens rules text = .ok ts) : emitted rules text = ts := by
  obtain ⟨cuts, ending, hcut⟩ := exists_cutting rules (Nat.zero_le text.toList.length)
  rw [tokens_of_cutting hcut] at h
  rw [emitted_of_cutting hcut]
  cases ending with
  | complete => exact Except.ok.inj h
  | broken start fault => cases h

end PhpTokens
