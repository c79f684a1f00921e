import Mathlib.Data.List.Forall2
import PhpTokens.Proofs.Scan.Run

/-! The rules for line breaks and for the place of a token decide what is reported, and nothing
else. Under rules that differ in these two alone a text is divided in the same way: the tokens are
made of the same characters, and a scan that fails does so at the same character. -/

namespace PhpTokens

/-- Two tokens are one piece of a text and differ at most in the line and the column reported. -/
structure Token.SamePiece (t t' : Token) : Prop where
  kind_eq : t.kind = t'.kind
  text_eq : t.text = t'.text
  extent_eq : t.extent = t'.extent
  length_eq : t.place.length = t'.place.length

/-- The tokens that stand for the end of the text. -/
def ends (ts : List Token) : List Token := ts.filter (·.kind == .endOfInput)

/-- A scan stands where its ending leaves it. -/
theorem drain_scanner_of_cutting {rules : Rules} {text : String} {cuts : List Cut}
    {ending : Ending} (h : Cutting rules text.toList 0 cuts ending) :
    (Scanner.start rules text).drain.scanner = (ending.step rules text.toList).scanner := by
  rw [Scanner.drain, Scanner.start_eq_behind, Scanner.steps_behind h]
  simp

theorem ends_of_cutting {rules : Rules} {text : List Char} {n : Nat} {cuts : List Cut}
    {ending : Ending} (h : Cutting rules text n cuts ending) :
    ends (cuts.map (Cut.token rules text) ++ [endOf rules text]) = [endOf rules text] := by
  have hcuts : ends (cuts.map (Cut.token rules text)) = [] := by
    refine List.filter_eq_nil_iff.mpr fun t ht => ?_
    obtain ⟨c, hc, rfl⟩ := List.mem_map.mp ht
    simpa [Cut.token] using (h.inner c hc).1
  rw [ends, List.filter_append]
  exact congrArg (· ++ _) hcuts

section SameDivision

variable {r r' : Rules}

/-- What is read depends on the keywords and on open ends alone. -/
theorem Lexeme.read_of_rules (hkeywords : r.keywords = r'.keywords)
    (hends : r.unterminated = r'.unterminated) (c : Char) (rest : List Char) :
    read r c rest = read r' c rest := by
  simp only [read, hkeywords, hends]

theorem Cutting.of_rules {text : List Char} {n : Nat} {cuts : List Cut} {ending : Ending}
    (h : Cutting r text n cuts ending) (hkeywords : r.keywords = r'.keywords)
    (hends : r.unterminated = r'.unterminated) : Cutting r' text n cuts ending := by
  induction h with
  | complete hblank => exact .complete hblank
  | broken hlead hread =>
    rw [Lexeme.read_of_rules hkeywords hends] at hread
    exact .broken hlead hread
  | cut hlead hread _ ih =>
    rw [Lexeme.read_of_rules hkeywords hends] at hread
    exact .cut hlead hread ih

theorem Cut.samePiece_token (r r' : Rules) (text : List Char) (c : Cut) :
    (c.token r text).SamePiece (c.token r' text) := by
  refine ⟨rfl, rfl, rfl, ?_⟩
  cases hanchor : r.anchor <;> cases hanchor' : r'.anchor <;>
    simp only [token, hanchor, hanchor', NewlineRule.place]

theorem samePiece_endOf (r r' : Rules) (text : List Char) :
    (endOf r text).SamePiece (endOf r' text) := ⟨rfl, rfl, rfl, rfl⟩

theorem samePiece_map_token (r r' : Rules) (text : List Char) (cuts : List Cut) :
    List.Forall₂ Token.SamePiece (cuts.map (Cut.token r text)) (cuts.map (Cut.token r' text)) := by
  rw [List.forall₂_map_left_iff, List.forall₂_map_right_iff]
  exact List.forall₂_same.mpr fun c _ => c.samePiece_token r r' text

/-- Lines and columns never decide what a token is. Scans under rules that agree on keywords and on
open ends deliver the same pieces and stop at the same byte, both at the end of the text or both at
the same fault. If the rules agree on line breaks as well, the end of the text and the error are
reported alike in every part. -/
theorem scans_divide_alike (r r' : Rules) (text : String) (hkeywords : r.keywords = r'.keywords)
    (hends : r.unterminated = r'.unterminated) :
    List.Forall₂ Token.SamePiece (emitted r text) (emitted r' text) ∧
      (Scanner.start r text).drain.scanner.reader.offset =
        (Scanner.start r' text).drain.scanner.reader.offset ∧
      match tokens r text, tokens r' text with
      | .ok ts, .ok ts' =>
        List.Forall₂ Token.SamePiece ts ts' ∧
          (r.newlines = r'.newlines → ∃ last, ends ts = [last] ∧ ends ts' = [last])
      | .error e, .error e' => e.fault = e'.fault ∧ (r.newlines = r'.newlines → e = e')
      | _, _ => False := by
  obtain ⟨cuts, ending, hcut⟩ := exists_cutting r (Nat.zero_le text.toList.length)
  have hcut' := hcut.of_rules hkeywords hends
  have hcuts := samePiece_map_token r r' text.toList cuts
  rw [emitted_of_cutting hcut, emitted_of_cutting hcut', drain_scanner_of_cutting hcut,
    drain_scanner_of_cutting hcut', tokens_of_cutting hcut, tokens_of_cutting hcut']
  cases ending with
  | complete =>
    have hall := List.rel_append hcuts (.cons (samePiece_endOf r r' text.toList) .nil)
    refine ⟨hall, rfl, hall, fun hnewlines => ⟨endOf r text.toList, ends_of_cutting hcut, ?_⟩⟩
    have hend : endOf r text.toList = endOf r' text.toList := by
      simp only [endOf, hnewlines]
    rw [hend]
    exact ends_of_cutting hcut'
  | broken start fault =>
    refine ⟨List.rel_append hcuts .nil, rfl, rfl, fun hnewlines => ?_⟩
    simp only [hnewlines]

/-- The break in front of the stray character is counted early or late, and tokens report their
ends or their beginnings; the division is the same. -/
theorem scans_divide_alike_at_break :
    let r : Rules := { newlines := .whenNext, anchor := .finish }
    r.keywords = ({} : Rules).keywords ∧ r.unterminated = ({} : Rules).unterminated ∧
      emitted r "é\n\n@" ≠ emitted {} "é\n\n@" ∧
      List.Forall₂ Token.SamePiece (emitted r "é\n\n@") (emitted {} "é\n\n@") ∧
      (Scanner.start r "é\n\n@").drain.scanner.reader.offset =
        (Scanner.start {} "é\n\n@").drain.scanner.reader.offset ∧
      match tokens r "é\n\n@", tokens {} "é\n\n@" with
      | .ok ts, .ok ts' =>
        List.Forall₂ Token.SamePiece ts ts' ∧
          (r.newlines = ({} : Rules).newlines → ∃ last, ends ts = [last] ∧ ends ts' = [last])
      | .error e, .error e' =>
        e.fault = e'.fault ∧ (r.newlines = ({} : Rules).newlines → e = e')
      | _, _ => False :=
  ⟨rfl, rfl, by decide +kernel, scans_divide_alike _ _ _ rfl rfl⟩

end SameDivision

end PhpTokens
