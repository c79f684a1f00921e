import PhpTokens.JsonText.Skip
import PhpTokens.Proofs.JsonText.Grammar
import PhpTokens.Proofs.Text.Runs

/-! Strings in JSON texts. A string is read and passed over up to its own closing quote, whatever
its characters are and however they are written. -/

namespace PhpTokens.JsonText

section Units

theorem hexValue?_of_isHexDigit {n : Nat} {c : Char} (h : IsHexDigit n c) :
    hexValue? c = some n := by
  have hupper : ∀ n < 16, hexValue? n.digitChar.toUpper = some n := by decide
  obtain ⟨hn, rfl | rfl⟩ := h
  · exact hexValue?_digitChar n hn
  · exact hupper n hn

theorem readHex_unit {n : Nat} {digits : List Char} (h : CodeUnit n digits) (rest : List Char) :
    readHex (digits ++ rest) = .ok (n, rest) := by
  cases h with
  | digits ha hb hc hd =>
    simp only [List.cons_append, List.nil_append, readHex, hexValue?_of_isHexDigit ha,
      hexValue?_of_isHexDigit hb, hexValue?_of_isHexDigit hc, hexValue?_of_isHexDigit hd]

/-- A character is no half of a surrogate pair. -/
theorem not_surrogate (c : Char) :
    isTrailingSurrogate c.toNat = false ∧ isLeadingSurrogate c.toNat = false := by
  have hvalid : c.toNat < 0xd800 ∨ 0xdfff < c.toNat ∧ c.toNat < 0x110000 := c.valid
  simp only [isTrailingSurrogate, isLeadingSurrogate, Bool.and_eq_false_iff, decide_eq_false_iff_not]
  omega

end Units

section Backslashes

/-- A character as it is. -/
theorem readStringFrom_plain {c : Char} (hcontrol : 0x20 ≤ c.toNat) (hquote : c ≠ '"')
    (hbackslash : c ≠ '\\') (done cs : List Char) :
    readStringFrom done (c :: cs) = readStringFrom (c :: done) cs := by
  rw [readStringFrom, if_neg hquote, if_neg hbackslash, if_neg (Nat.not_lt.mpr hcontrol)]

theorem skipString_plain {c : Char} (hcontrol : 0x20 ≤ c.toNat) (hquote : c ≠ '"')
    (hbackslash : c ≠ '\\') (cs : List Char) : skipString (c :: cs) = skipString cs := by
  rw [skipString, if_neg hquote, if_neg hbackslash, if_neg (Nat.not_lt.mpr hcontrol)]

theorem readStringFrom_backslash {c : Char} {cs rest : List Char}
    (h : readEscape cs = .ok (c, rest)) (done : List Char) :
    readStringFrom done ('\\' :: cs) = readStringFrom (c :: done) rest := by
  rw [readStringFrom, if_neg (by decide), if_pos rfl]
  split
  · next hescape => rw [h] at hescape; cases hescape
  · next hescape => rw [h] at hescape; cases hescape; rfl

theorem skipString_backslash {cs rest : List Char} (h : skipEscape cs = .ok rest) :
    skipString ('\\' :: cs) = skipString rest := by
  rw [skipString, if_neg (by decide), if_pos rfl]
  split
  · next hescape => rw [h] at hescape; cases hescape
  · next hescape => rw [h] at hescape; cases hescape; rfl

end Backslashes

section Escapes

theorem shortEscape?_of_mem : ∀ entry ∈ shortEscapes,
    entry.2 ≠ 'u' ∧ shortEscape? entry.2 = some entry.1 := by decide

variable {c : Char} {cs : List Char} (h : Escape c cs) (rest : List Char)
include h

theorem readEscape_of_escape : readEscape (cs ++ rest) = .ok (c, rest) := by
  cases h with
  | @short l h =>
    obtain ⟨hu, hshort⟩ := shortEscape?_of_mem _ h
    rw [List.singleton_append, readEscape, if_neg hu, hshort]
  | unit h =>
    obtain ⟨htrailing, hleading⟩ := not_surrogate c
    rw [List.cons_append, readEscape, if_pos rfl, readHex_unit h]
    simp only [htrailing, hleading, Char.ofNat_toNat]
    rfl
  | @pair leading trailing front back hleading htrailing hc hfront hback =>
    have hlead : isTrailingSurrogate leading = false ∧ isLeadingSurrogate leading = true := by
      simp only [isTrailingSurrogate, isLeadingSurrogate, Bool.and_eq_false_iff, Bool.and_eq_true,
        decide_eq_false_iff_not, decide_eq_true_eq]
      omega
    have htrail : isTrailingSurrogate trailing = true := by
      simpa [isTrailingSurrogate] using htrailing
    have hpair : ofPair leading trailing = c := by
      rw [ofPair, ← hc, Char.ofNat_toNat]
    rw [List.cons_append, List.append_assoc, readEscape, if_pos rfl, readHex_unit hfront]
    simp only [hlead, Bool.false_eq_true, if_false, if_true, List.cons_append, readPair,
      readHex_unit hback, htrail, hpair]

theorem skipString_escape : skipString ('\\' :: (cs ++ rest)) = skipString rest := by
  have hunit {n : Nat} {digits : List Char} (h : CodeUnit n digits) (after : List Char) :
      skipString ('\\' :: 'u' :: (digits ++ after)) = skipString after := by
    refine skipString_backslash ?_
    rw [skipEscape, if_pos rfl, readHex_unit h]
    rfl
  cases h with
  | @short l h =>
    obtain ⟨hu, hshort⟩ := shortEscape?_of_mem _ h
    refine skipString_backslash ?_
    rw [List.singleton_append, skipEscape, if_neg hu, hshort]
    rfl
  | unit h => exact hunit h rest
  | pair _ _ _ hfront hback =>
    -- the two halves are passed one after the other
    rw [List.cons_append, List.append_assoc, hunit hfront]
    exact hunit hback rest

end Escapes

section Strings

variable {cs body : List Char} (h : Spells cs body) (rest : List Char)
include h

theorem readStringFrom_spells (done : List Char) :
    readStringFrom done (body ++ '"' :: rest) = .ok (String.ofList (done.reverse ++ cs), rest) := by
  induction h generalizing done with
  | nil => rw [List.nil_append, readStringFrom, if_pos rfl, List.append_nil]
  | @cons c piece cs body hc _ ih =>
    rw [List.append_assoc]
    have hstep : readStringFrom done (piece ++ (body ++ '"' :: rest)) =
        readStringFrom (c :: done) (body ++ '"' :: rest) := by
      cases hc with
      | plain hcontrol hquote hbackslash =>
        exact readStringFrom_plain hcontrol hquote hbackslash done _
      | escape h => exact readStringFrom_backslash (readEscape_of_escape h _) done
    rw [hstep, ih, List.reverse_cons, List.append_assoc, List.singleton_append]

theorem readString_spells : readString (body ++ '"' :: rest) = .ok (String.ofList cs, rest) :=
  readStringFrom_spells h rest []

theorem skipString_spells : skipString (body ++ '"' :: rest) = .ok rest := by
  induction h with
  | nil => rw [List.nil_append, skipString, if_pos rfl]
  | @cons c piece cs body hc _ ih =>
    rw [List.append_assoc]
    cases hc with
    | plain hcontrol hquote hbackslash =>
      exact (skipString_plain hcontrol hquote hbackslash _).trans ih
    | escape h => exact (skipString_escape h _).trans ih

end Strings

end PhpTokens.JsonText
