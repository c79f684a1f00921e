import PhpTokens.Text.Quoted
import PhpTokens.Proofs.Text.Runs

/-! Quoted texts are read back. Every character is written in one of three forms, which a reader
tells apart by what stands behind a backslash, and the quote that ends the text is the first one
without a backslash. No form has a line feed in it. -/

namespace PhpTokens.Quoted

/-- The characters with an escape of their own, and the character behind the backslash. -/
def escapes : List (Char × Char) :=
  [('"', '"'), ('\\', '\\'), ('\n', 'n'), ('\r', 'r'), ('\t', 't'), ('\x00', '0')]

/-- The form of a character in a text, where `hidden` are the ones that are not shown as they are:
those are written in lower-case hexadecimal digits without leading zeros. -/
inductive Form (hidden : Char → Prop) : Char → List Char → Prop where
  | escape {c l : Char} (h : (c, l) ∈ escapes) : Form hidden c ['\\', l]
  | code {c : Char} (other : ∀ l, (c, l) ∉ escapes) (h : hidden c) :
      Form hidden c (['\\', 'u', '\x7b'] ++ Nat.toDigits 16 c.toNat ++ ['\x7d'])
  | plain {c : Char} (other : ∀ l, (c, l) ∉ escapes) (h : ¬ hidden c) : Form hidden c [c]

/-- A character that shows nothing of its own. -/
def IsUnprintable (c : Char) : Prop :=
  CodeSet.printable.contains c = false ∨ CodeSet.defaultIgnorable.contains c = true

/-- A character that is unprintable or extends the one before it without filling a cell. -/
def IsHidden (c : Char) : Prop :=
  (CodeSet.graphemeExtend.contains c = true ∧ c ≠ '\uff9e' ∧ c ≠ '\uff9f') ∨ IsUnprintable c

theorem isPlain_eq_false_iff {c : Char} : isPlain c = false ↔ IsHidden c := by
  simp only [isPlain, isExtender, isSoundMark, IsHidden, IsUnprintable, Bool.and_eq_false_iff,
    Bool.not_eq_false', Bool.and_eq_true, Bool.not_eq_true', Bool.or_eq_false_iff,
    beq_eq_false_iff_ne, ne_eq]
  exact or_comm

theorem escape_of_letter? {c l : Char} (h : letter? c = some l) : (c, l) ∈ escapes := by
  have hall : ∀ entry ∈ [('\n', 'n'), ('\r', 'r'), ('\t', 't'), ('\x00', '0')],
      entry ∈ escapes := by decide
  apply hall
  unfold letter? at h
  grind

theorem not_escape {c : Char} (hletter : letter? c = none) (hmark : ¬ (c = '"' ∨ c = '\\'))
    (l : Char) : (c, l) ∉ escapes := by
  have hall : ∀ entry ∈ escapes,
      (entry.1 = '"' ∨ entry.1 = '\\') ∨ letter? entry.1 ≠ none := by decide
  intro hmem
  rcases hall _ hmem with hescaped | hescaped
  · exact hmark hescaped
  · exact hescaped hletter

/-- Every character of a text is written in its form. -/
theorem form_encodeChar (c : Char) : Form IsHidden c (encodeChar '"' c) := by
  unfold encodeChar
  split
  · next hletter => exact .escape (escape_of_letter? hletter)
  · next hletter =>
    split
    · next hmark => rcases hmark with rfl | rfl <;> exact .escape (by decide)
    · next hmark =>
      have hother := not_escape hletter hmark
      split
      · next hplain =>
        refine .plain hother fun hhidden => ?_
        rw [isPlain_eq_false_iff.mpr hhidden] at hplain
        cases hplain
      · next hplain => exact .code hother (isPlain_eq_false_iff.mp (Bool.not_eq_true _ ▸ hplain))

/-- A character has one form. -/
theorem Form.unique {hidden : Char → Prop} {c : Char} {piece piece' : List Char}
    (h : Form hidden c piece) (h' : Form hidden c piece') : piece = piece' := by
  have hall : ∀ entry ∈ escapes, ∀ entry' ∈ escapes, entry.1 = entry'.1 → entry.2 = entry'.2 := by
    decide
  cases h with
  | @escape l h =>
    cases h' with
    | @escape l' h' => rw [show l = l' from hall _ h _ h' rfl]
    | code other _ => exact absurd h (other l)
    | plain other _ => exact absurd h (other l)
  | code other hhidden =>
    cases h' with
    | @escape l h' => exact absurd h' (other l)
    | code _ _ => rfl
    | plain _ hshown => exact absurd hhidden hshown
  | plain other hshown =>
    cases h' with
    | @escape l h' => exact absurd h' (other l)
    | code _ hhidden => exact absurd hhidden hshown
    | plain _ _ => rfl

theorem Form.no_lineFeed {hidden : Char → Prop} {c : Char} {piece : List Char}
    (h : Form hidden c piece) : '\n' ∉ piece := by
  cases h with
  | escape h =>
    have hall : ∀ entry ∈ escapes, '\n' ∉ ['\\', entry.2] := by decide
    exact hall _ h
  | code _ _ =>
    obtain ⟨digits, hlt, hdigits, -⟩ := exists_hexDigits c.toNat
    simp only [hdigits, List.mem_append, List.mem_map, not_or, not_exists, not_and]
    refine ⟨⟨by decide, fun d hd => ?_⟩, by decide⟩
    exact Nat.digitChar_ne '\n' (by decide)
  | plain other _ =>
    intro hmem
    rw [← List.mem_singleton.mp hmem] at other
    exact other 'n' (by decide)

/-- The form of a character between single quotes, which is the same but for the quotes. -/
inductive LoneForm : Char → List Char → Prop where
  | doubleQuote : LoneForm '"' ['"']
  | singleQuote : LoneForm '\'' ['\\', '\'']
  | other {c : Char} {piece : List Char} (hdouble : c ≠ '"') (hsingle : c ≠ '\'')
      (h : Form IsHidden c piece) : LoneForm c piece

theorem loneForm_iff {c : Char} {piece : List Char} :
    LoneForm c piece ↔ piece = encodeChar '\'' c := by
  have hdouble : encodeChar '\'' '"' = ['"'] := by decide +kernel
  have hsingle : encodeChar '\'' '\'' = ['\\', '\''] := by decide
  have hother (hd : c ≠ '"') (hs : c ≠ '\'') : encodeChar '\'' c = encodeChar '"' c := by
    rw [encodeChar, encodeChar]
    simp only [hd, hs, false_or]
  constructor
  · rintro ⟨⟩
    · exact hdouble.symm
    · exact hsingle.symm
    · next hd hs h =>
      rw [hother hd hs]
      exact h.unique (form_encodeChar c)
  · rintro rfl
    by_cases hd : c = '"'
    · rw [hd, hdouble]
      exact .doubleQuote
    · by_cases hs : c = '\''
      · rw [hs, hsingle]
        exact .singleQuote
      · rw [hother hd hs]
        exact .other hd hs (form_encodeChar c)

theorem LoneForm.no_lineFeed {c : Char} {piece : List Char} (h : LoneForm c piece) :
    '\n' ∉ piece := by
  cases h with
  | doubleQuote => decide
  | singleQuote => decide
  | other _ _ h => exact h.no_lineFeed

theorem encode_no_lineFeed (cs : List Char) : '\n' ∉ encode '"' cs := by
  intro hmem
  obtain ⟨c, -, hmem⟩ := List.mem_flatMap.mp hmem
  exact (form_encodeChar c).no_lineFeed hmem

/-- How far the present character has been read. -/
inductive Phase where
  | fresh
  | backslash
  /-- Behind a backslash and its `u`. -/
  | brace
  /-- Among the digits of a code point, of which those read make `value`. -/
  | digits (value : Nat)

/-- The character that a character behind a backslash stands for. -/
def ofEscape? (l : Char) : Option Char := (escapes.find? (·.2 == l)).map Prod.fst

/-- The rest of a quoted text and what follows it; `done` holds what has been read, the last
character first. -/
def decodeFrom? (done : List Char) : Phase → List Char → Option (List Char × List Char)
  | _, [] => none
  | .fresh, c :: cs =>
    if c = '"' then some (done.reverse, cs)
    else if c = '\\' then decodeFrom? done .backslash cs
    else decodeFrom? (c :: done) .fresh cs
  | .backslash, l :: cs =>
    if l = 'u' then decodeFrom? done .brace cs
    else (ofEscape? l).bind fun c => decodeFrom? (c :: done) .fresh cs
  | .brace, c :: cs => if c = '\x7b' then decodeFrom? done (.digits 0) cs else none
  | .digits value, c :: cs =>
    if c = '\x7d' then decodeFrom? (Char.ofNat value :: done) .fresh cs
    else (JsonText.hexValue? c).bind fun d => decodeFrom? done (.digits (16 * value + d)) cs

/-- A text behind its opening quote, and what follows the closing one. -/
def decode? (cs : List Char) : Option (List Char × List Char) := decodeFrom? [] .fresh cs

theorem ofEscape?_of_mem :
    ∀ entry ∈ escapes, entry.2 ≠ 'u' ∧ ofEscape? entry.2 = some entry.1 := by decide

theorem decodeFrom?_digits (done : List Char) (value : Nat) {digits : List Nat}
    (h : ∀ d ∈ digits, d < 16) (rest : List Char) :
    decodeFrom? done (.digits value) (digits.map Nat.digitChar ++ '\x7d' :: rest) =
      decodeFrom? (Char.ofNat (ofHexDigits value digits) :: done) .fresh rest := by
  induction digits generalizing value with
  | nil => rfl
  | cons d digits ih =>
    have hbrace : d.digitChar ≠ '\x7d' := Nat.digitChar_ne '\x7d' (by decide)
    rw [List.map_cons, List.cons_append, decodeFrom?, if_neg hbrace,
      hexValue?_digitChar d (h d List.mem_cons_self), Option.bind_some,
      ih _ fun e he => h e (List.mem_cons_of_mem _ he)]
    rfl

/-- Whatever characters are hidden, a character is read from its form. -/
theorem Form.decode {hidden : Char → Prop} {c : Char} {piece : List Char}
    (h : Form hidden c piece) (done rest : List Char) :
    decodeFrom? done .fresh (piece ++ rest) = decodeFrom? (c :: done) .fresh rest := by
  cases h with
  | @escape l h =>
    obtain ⟨hu, hescape⟩ := ofEscape?_of_mem _ h
    rw [List.cons_append, List.singleton_append, decodeFrom?, if_neg (by decide), if_pos rfl,
      decodeFrom?, if_neg hu, hescape, Option.bind_some]
  | code _ _ =>
    obtain ⟨digits, hlt, hdigits, hvalue⟩ := exists_hexDigits c.toNat
    rw [hdigits, List.append_assoc, List.append_assoc]
    exact (decodeFrom?_digits done 0 hlt rest).trans (by rw [hvalue, Char.ofNat_toNat])
  | plain other _ =>
    have hquote : c ≠ '"' := by
      rintro rfl
      exact other '"' (by decide)
    have hbackslash : c ≠ '\\' := by
      rintro rfl
      exact other '\\' (by decide)
    rw [List.singleton_append, decodeFrom?, if_neg hquote, if_neg hbackslash]

theorem decodeFrom?_encode (done cs rest : List Char) :
    decodeFrom? done .fresh (encode '"' cs ++ '"' :: rest) = some (done.reverse ++ cs, rest) := by
  induction cs generalizing done with
  | nil => rw [encode, List.flatMap_nil, List.nil_append, decodeFrom?, if_pos rfl, List.append_nil]
  | cons c cs ih =>
    rw [encode, List.flatMap_cons, List.append_assoc, (form_encodeChar c).decode]
    rw [encode] at ih
    rw [ih, List.reverse_cons, List.append_assoc, List.singleton_append]

theorem decode?_encode (cs rest : List Char) :
    decode? (encode '"' cs ++ '"' :: rest) = some (cs, rest) :=
  decodeFrom?_encode [] cs rest

end PhpTokens.Quoted
