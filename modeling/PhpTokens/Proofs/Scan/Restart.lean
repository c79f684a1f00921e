import PhpTokens.Proofs.SourceText
import PhpTokens.Proofs.Scan.Requests

/-! A scanner that stands inside a text delivers what a new scanner delivers for the rest of the
text, up to where the rest begins. Both timings of line breaks allow this, although the one that
looks ahead treats the first character of a text as no other: a break there has been counted
before the rest begins. -/

namespace PhpTokens

/-- A line of a text that begins at a reader, as a line of the whole text. -/
def TextReader.lineBehind (k : TextReader) (line : Nat) : Nat := k.line + line - 1

/-- A column of a text that begins at a reader. Only the first line goes on with the reader's. -/
def TextReader.columnBehind (k : TextReader) (line column : Nat) : Nat :=
  if line = 1 then k.column + column - 1 else column

/-- A place in a text that begins at a reader, as a place in the whole text. -/
def Place.behind (k : TextReader) (p : Place) : Place :=
  ⟨k.lineBehind p.line, k.columnBehind p.line p.column, p.length⟩

def Token.behind (k : TextReader) (t : Token) : Token :=
  { t with
    place := t.place.behind k
    extent := ⟨k.offset + t.extent.start, k.offset + t.extent.stop⟩ }

def ScanError.behind (k : TextReader) (e : ScanError) : ScanError :=
  ⟨e.fault, k.lineBehind e.line, k.columnBehind e.line e.column⟩

/-- What a request delivers for a text that begins at a reader, in terms of the whole text. -/
def resultBehind (k : TextReader) : Except ScanError Token → Except ScanError Token
  | .ok t => .ok (t.behind k)
  | .error e => .error (e.behind k)

theorem NewlineRule.place_add (rule : NewlineRule) (text : List Char) (n k length : Nat) :
    rule.place text (n + k) length =
      (rule.place (text.drop n) k length).behind (.behind rule text n) := by
  rw [place, line_add, column_add]
  rfl

/-- The same cut in a text that has `n` more characters in front. -/
def Cut.shift (n : Nat) (c : Cut) : Cut := ⟨n + c.start, c.piece⟩

def Ending.shift (n : Nat) : Ending → Ending
  | .complete => .complete
  | .broken start fault => .broken (n + start) fault

section Rest

variable {rules : Rules} {text : List Char} {n : Nat}

theorem Blanks.of_drop {m s : Nat} (h : Blanks (text.drop n) m s) (hn : n ≤ text.length) :
    Blanks text (n + m) (n + s) := by
  have hle := h.le
  have hstop := h.stop_le
  rw [List.length_drop] at hstop
  refine ⟨by omega, by omega, ?_⟩
  rw [Nat.add_sub_add_left, ← List.drop_drop]
  exact h.blank

theorem Lead.of_drop {m s : Nat} {c : Char} (h : Lead (text.drop n) m s c)
    (hn : n ≤ text.length) : Lead text (n + m) (n + s) c where
  blanks := h.blanks.of_drop hn
  here := by
    rw [← List.getElem?_drop]
    exact h.here
  solid := h.solid

/-- The rest of a text is divided as it would be alone. -/
theorem Cutting.of_drop {m : Nat} {cuts : List Cut} {ending : Ending}
    (h : Cutting rules (text.drop n) m cuts ending) (hn : n ≤ text.length) :
    Cutting rules text (n + m) (cuts.map (Cut.shift n)) (ending.shift n) := by
  induction h with
  | complete hblank =>
    refine .complete ?_
    have hwhole := hblank.of_drop hn
    rwa [List.length_drop, Nat.add_sub_cancel' hn] at hwhole
  | broken hlead hread =>
    refine .broken (hlead.of_drop hn) ?_
    rwa [List.drop_drop, ← Nat.add_assoc] at hread
  | cut hlead hread _ ih =>
    rw [← Nat.add_assoc] at ih
    refine .cut (hlead.of_drop hn) ?_ ih
    rwa [List.drop_drop, ← Nat.add_assoc] at hread

theorem Cut.token_shift (rules : Rules) (text : List Char) (n : Nat) (c : Cut) :
    (c.shift n).token rules text =
      (c.token rules (text.drop n)).behind (.behind rules.newlines text n) := by
  have hstop : (c.shift n).stop = n + c.stop := Nat.add_assoc _ _ _
  have hstart : (c.shift n).start = n + c.start := rfl
  have hpiece : (c.shift n).piece = c.piece := rfl
  cases hanchor : rules.anchor <;>
    simp only [token, Token.behind, hanchor, hstop, hstart, hpiece, NewlineRule.place_add,
      Utf8.size_take_add, ← List.drop_drop, TextReader.behind]

theorem Ending.outcome_shift (rules : Rules) (hn : n ≤ text.length) (ending : Ending) :
    (ending.shift n).outcome rules text =
      resultBehind (.behind rules.newlines text n) (ending.outcome rules (text.drop n)) := by
  cases ending with
  | complete =>
    have hplace := rules.newlines.place_add text n (text.drop n).length 1
    have hsize := Utf8.size_append (text.take n) (text.drop n)
    rw [List.length_drop, Nat.add_sub_cancel' hn, ← List.length_drop] at hplace
    rw [List.take_append_drop] at hsize
    simp only [shift, outcome, endOf, hplace, hsize]
    rfl
  | broken start fault =>
    simp only [shift, outcome, NewlineRule.line_add, NewlineRule.column_add]
    rfl

/-- A scanner inside a text delivers what a new one delivers for the rest. -/
theorem Scanner.result_behind (rules : Rules) (hn : n ≤ text.length) (i : Nat) :
    (Scanner.behind rules text n).result i =
      resultBehind (.behind rules.newlines text n)
        ((Scanner.behind rules (text.drop n) 0).result i) := by
  obtain ⟨cuts, ending, hcut⟩ := exists_cutting rules (Nat.zero_le (text.drop n).length)
  have hwhole := hcut.of_drop hn
  rw [Nat.add_zero] at hwhole
  rw [result_of_cutting hcut, result_of_cutting hwhole, List.getElem?_map,
    Ending.outcome_shift rules hn]
  cases cuts[i]? with
  | none => rfl
  | some c =>
    simp only [Option.map_some, Option.elim_some, Cut.token_shift]
    rfl

end Rest

/-- Starting again at the end of a token changes nothing but the origin. When every one of `i`
requests has delivered a token, the results of all later requests are those that a new scanner
delivers for the rest of the text, counted on from where the first scanner stands. -/
theorem results_restart (rules : Rules) (text : String) (i : Nat)
    (h : ∀ j < i, ((Scanner.start rules text).result j).isOk = true) :
    ∃ rest,
      SourceText.dropBytes? ((Scanner.start rules text).after i).reader.offset text.toList =
        some rest ∧
      ∀ j, ((Scanner.start rules text).after i).result j =
        resultBehind ((Scanner.start rules text).after i).reader
          ((Scanner.start rules (String.ofList rest)).result j) := by
  simp only [Scanner.start_eq_behind, String.toList_ofList] at h ⊢
  obtain ⟨n, hn, hafter⟩ := Scanner.exists_after_eq_behind (Nat.zero_le _) h
  rw [hafter]
  exact ⟨_, SourceText.dropBytes?_eq_some_iff.mpr ⟨n, hn, rfl, rfl⟩,
    fun j => Scanner.result_behind rules hn j⟩

/-- The rest begins with a break that the first scanner has counted and a new one does not count. -/
theorem results_restart_at_break :
    let rules : Rules := { newlines := .whenNext, anchor := .finish }
    let s := (Scanner.start rules "é\n\"b\n\" @").after 1
    (∀ j < 1, ((Scanner.start rules "é\n\"b\n\" @").result j).isOk = true) ∧
      s.reader.line = 2 ∧
      ∃ rest,
        SourceText.dropBytes? s.reader.offset "é\n\"b\n\" @".toList = some rest ∧
        ∀ j, s.result j =
          resultBehind s.reader ((Scanner.start rules (String.ofList rest)).result j) := by
  have hok : ∀ j < 1, ((Scanner.start { newlines := .whenNext, anchor := .finish }
      "é\n\"b\n\" @").result j).isOk = true := by decide +kernel
  exact ⟨hok, by decide +kernel, results_restart _ _ 1 hok⟩

end PhpTokens
