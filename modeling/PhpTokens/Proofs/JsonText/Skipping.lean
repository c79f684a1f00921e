import PhpTokens.Proofs.JsonText.Strings

/-! Passing over JSON texts. Whatever value a text has, and however deep it is nested, exactly that
text is passed. -/

namespace PhpTokens.JsonText

section Blanks

theorem isBlank_iff {c : Char} : isBlank c = true ↔ c ∈ [' ', '\t', '\n', '\r'] := by
  simp only [isBlank, Bool.or_eq_true, beq_iff_eq, List.mem_cons, List.not_mem_nil, or_false]
  grind

variable {front : List Char} (h : IsBlanks front)

include h in
theorem skipBlanks_append (cs : List Char) : skipBlanks (front ++ cs) = skipBlanks cs :=
  List.dropWhile_append_of_pos fun c hc => isBlank_iff.mpr (h c hc)

include h in
theorem skipBlanks_of_isBlanks : skipBlanks front = [] := by
  have hend := skipBlanks_append h []
  rwa [List.append_nil] at hend

theorem skipBlanks_cons {c : Char} (hc : isBlank c = false) (cs : List Char) :
    skipBlanks (c :: cs) = c :: cs :=
  List.dropWhile_cons_of_neg (by simp [hc])

include h in
theorem skipBlanks_append_cons {c : Char} (hc : isBlank c = false) (cs : List Char) :
    skipBlanks (front ++ c :: cs) = c :: cs := by
  rw [skipBlanks_append h, skipBlanks_cons hc]

/-- A text begins with one of these characters, unless it is empty. -/
def BeginsIn (set cs : List Char) : Prop := ∀ c, cs.head? = some c → c ∈ set

theorem BeginsIn.stops {set cs : List Char} (h : BeginsIn set cs) {p : Char → Bool}
    (hp : set.any p = false) : Stops p cs.head? := by
  intro c hc
  exact Bool.eq_false_iff.mpr (List.any_eq_false.mp hp c (h c hc))

/-- The characters that may stand behind a value. -/
def valueEnds : List Char := [' ', '\t', '\n', '\r', ',', ']', '\x7d']

/-- A value may end in front of a text. -/
def Ends (rest : List Char) : Prop := BeginsIn valueEnds rest

theorem Ends.nil : Ends [] := by
  intro c hc
  cases hc

theorem Ends.cons {c : Char} (h : c ∈ valueEnds) (rest : List Char) : Ends (c :: rest) := by
  intro d hd
  cases hd
  exact h

include h in
theorem Ends.append {rest : List Char} (hrest : Ends rest) : Ends (front ++ rest) := by
  cases front with
  | nil => exact hrest
  | cons c front =>
    have hblanks : [' ', '\t', '\n', '\r'] ⊆ valueEnds := by decide
    exact Ends.cons (hblanks (h c List.mem_cons_self)) _

end Blanks

section Numbers

theorem ne_of_isDigit {c d : Char} (hc : isDigit c = true) (hd : isDigit d = false) : c ≠ d := by
  rintro rfl
  rw [hc] at hd
  cases hd

/-- The first character of a number is none that is neither a digit nor the sign. -/
theorem ne_of_starts {c d : Char} (h : c = '-' ∨ isDigit c = true)
    (hd : isDigit d = false ∧ '-' ≠ d) : c ≠ d := by
  rcases h with rfl | hc
  · exact hd.2
  · exact ne_of_isDigit hc hd.1

variable {digits rest : List Char}

section

variable (hdigits : IsDigits digits) (hrest : Stops isDigit rest.head?)
include hdigits hrest

theorem skipDigits_append : skipDigits (digits ++ rest) = rest :=
  dropWhile_append_of_stops hdigits hrest

theorem takeWhile_isDigit_append : (digits ++ rest).takeWhile isDigit = digits :=
  takeWhile_append_of_stops hdigits hrest

end

variable (hends : Ends rest)
include hends

theorem skipExponentPart_append {exponent : List Char} (h : IsExponent exponent) :
    skipExponentPart (exponent ++ rest) = .ok rest := by
  cases h with
  | none =>
    cases rest with
    | nil => rfl
    | cons c rest =>
      have hletter := hends.stops (p := fun c => c == 'e' || c == 'E') (by decide) c rfl
      simp only [Bool.or_eq_false_iff, beq_eq_false_iff_ne] at hletter
      rw [List.nil_append, skipExponentPart, if_neg (not_or.mpr hletter)]
  | @digits letter sign cs hletter hsign hne hcs =>
    obtain ⟨d, ds, rfl⟩ := List.exists_cons_of_ne_nil hne
    have hd : isDigit d = true := hcs d List.mem_cons_self
    have hds : IsDigits ds := fun c hc => hcs c (List.mem_cons_of_mem _ hc)
    have hsign : dropSign (sign ++ d :: (ds ++ rest)) = d :: (ds ++ rest) := by
      have hplain : ¬ (d = '+' ∨ d = '-') :=
        not_or.mpr ⟨ne_of_isDigit hd (by decide), ne_of_isDigit hd (by decide)⟩
      simp only [List.mem_cons, List.not_mem_nil, or_false] at hsign
      rcases hsign with rfl | rfl | rfl
      · exact if_neg hplain
      · rfl
      · rfl
    have hletter : letter = 'e' ∨ letter = 'E' := by simpa using hletter
    rw [List.cons_append, List.append_assoc, List.cons_append, skipExponentPart, if_pos hletter,
      skipExponent, hsign]
    simp only [hd, if_true, skipDigits_append hds (hends.stops (by decide))]

theorem beginsIn_exponent {exponent : List Char} (h : IsExponent exponent) :
    BeginsIn ('e' :: 'E' :: valueEnds) (exponent ++ rest) := by
  intro c hc
  cases h with
  | none => exact List.mem_cons_of_mem _ (List.mem_cons_of_mem _ (hends c hc))
  | digits hletter =>
    cases hc
    exact List.mem_append_left valueEnds hletter

theorem skipFraction_append {fraction exponent : List Char} (hfraction : IsFraction fraction)
    (hexponent : IsExponent exponent) :
    skipFraction (fraction ++ (exponent ++ rest)) = .ok rest := by
  have hbegins := beginsIn_exponent hends hexponent
  have htail := skipExponentPart_append hends hexponent
  cases hfraction with
  | none =>
    rw [List.nil_append]
    cases hcs : exponent ++ rest with
    | nil =>
      rw [hcs] at htail
      exact htail
    | cons c cs =>
      rw [hcs] at hbegins htail
      have hpoint := hbegins.stops (p := (· == '.')) (by decide) c rfl
      rw [skipFraction, if_neg (beq_eq_false_iff_ne.mp hpoint), htail]
  | @digits cs hne hcs =>
    have hstops : Stops isDigit (exponent ++ rest).head? := hbegins.stops (by decide)
    rw [List.cons_append, skipFraction, if_pos rfl, takeWhile_isDigit_append hcs hstops,
      skipDigits_append hcs hstops, htail]
    exact if_neg (by simpa using hne)

theorem stops_fraction {fraction exponent : List Char} (hfraction : IsFraction fraction)
    (hexponent : IsExponent exponent) :
    Stops isDigit (fraction ++ (exponent ++ rest)).head? := by
  cases hfraction with
  | none => exact (beginsIn_exponent hends hexponent).stops (by decide)
  | digits _ _ => exact stops_cons (by decide) _

/-- The digits of a number are passed with its fraction and its exponent. -/
theorem skipNumber_append {integer fraction exponent : List Char} (hinteger : IsInteger integer)
    (hfraction : IsFraction fraction) (hexponent : IsExponent exponent) :
    skipNumber (integer ++ (fraction ++ (exponent ++ rest))) = .ok rest := by
  have hstops := stops_fraction hends hfraction hexponent
  have htail := skipFraction_append hends hfraction hexponent
  cases hinteger with
  | zero =>
    have hnone := takeWhile_isDigit_append (List.forall_mem_nil _) hstops
    rw [List.nil_append] at hnone
    rw [List.singleton_append, skipNumber, if_pos rfl, hnone]
    exact htail
  | @other c cs hc hzero hcs =>
    rw [List.cons_append, skipNumber, if_neg hzero, skipDigits_append hcs hstops, htail]
    exact if_pos hc

/-- A number is passed, whether it has a sign or not. -/
theorem skipScalar_numeral {numeral : List Char} (h : IsNumeral numeral) :
    ∃ c cs, numeral = c :: cs ∧ (c = '-' ∨ isDigit c = true) ∧
      skipScalar c (cs ++ rest) = .ok rest := by
  cases h with
  | @mk sign integer fraction exponent hsign hinteger hfraction hexponent =>
    have hnumber := skipNumber_append hends hinteger hfraction hexponent
    have hsign : sign = [] ∨ sign = ['-'] := by simpa using hsign
    rcases hsign with rfl | rfl
    · have hfirst : ∃ c cs, integer = c :: cs ∧ isDigit c = true := by
        cases hinteger with
        | zero => exact ⟨_, _, rfl, rfl⟩
        | other hc _ _ => exact ⟨_, _, rfl, hc⟩
      obtain ⟨c, cs, rfl, hc⟩ := hfirst
      refine ⟨c, cs ++ (fraction ++ exponent), rfl, .inr hc, ?_⟩
      have hne {d : Char} (hd : isDigit d = false) : c ≠ d := ne_of_isDigit hc hd
      rw [skipScalar, if_neg (hne (by decide)), if_neg (hne (by decide)), if_neg (hne (by decide)),
        if_neg (hne (by decide)), if_pos hc, List.append_assoc, List.append_assoc]
      exact hnumber
    · refine ⟨'-', integer ++ (fraction ++ exponent), rfl, .inl rfl, ?_⟩
      rw [List.append_assoc, List.append_assoc]
      exact hnumber

end Numbers

section Heads

/-- The characters that a value may begin with. -/
def Datum.Opens (c : Char) : Datum → Prop
  | .null => c = 'n'
  | .bool true => c = 't'
  | .bool false => c = 'f'
  | .number _ => c = '-' ∨ isDigit c = true
  | .string _ => c = '"'
  | .array _ => c = '['
  | .object _ => c = '\x7b'

theorem Text.head {d : Datum} {cs : List Char} (h : Text d cs) :
    ∃ c tail, cs = c :: tail ∧ d.Opens c := by
  cases h with
  | number h =>
    obtain ⟨c, tail, rfl, hc, -⟩ := skipScalar_numeral Ends.nil h
    exact ⟨c, tail, rfl, hc⟩
  | null | true | false | string _ | emptyArray _ | array _ | emptyObject _ | object _ =>
    exact ⟨_, _, rfl, rfl⟩

/-- A value begins with no blank and with no mark that closes a list. -/
theorem Datum.Opens.solid {d : Datum} {c : Char} (h : d.Opens c) :
    isBlank c = false ∧ c ≠ ']' := by
  cases d with
  | number numeral =>
    refine ⟨?_, ne_of_starts h (by decide)⟩
    simp only [isBlank, Bool.or_eq_false_iff, beq_eq_false_iff_ne]
    exact ⟨⟨⟨ne_of_starts h (by decide), ne_of_starts h (by decide)⟩,
      ne_of_starts h (by decide)⟩, ne_of_starts h (by decide)⟩
  | bool b => cases b <;> cases h <;> decide
  | null | string _ | array _ | object _ => cases h; decide

/-- The first character tells a null, a string and an object from other values. -/
theorem Datum.Opens.inv {d : Datum} {c : Char} (h : d.Opens c) :
    (c = 'n' → d = .null) ∧ (c = '"' → ∃ s, d = .string s) ∧ (c = '\x7b' → ∃ ms, d = .object ms) := by
  cases d with
  | number numeral =>
    exact ⟨fun hn => absurd hn (ne_of_starts h (by decide)),
      fun hquote => absurd hquote (ne_of_starts h (by decide)),
      fun hbrace => absurd hbrace (ne_of_starts h (by decide))⟩
  | bool b => cases b <;> cases h <;> simp
  | null | string _ | array _ | object _ => cases h; simp

/-- Behind blanks, items begin as their first value does. -/
theorem Items.head {ds : List Datum} {cs : List Char} (h : Items ds cs) :
    ∃ front c tail, cs = front ++ c :: tail ∧ IsBlanks front ∧ ∃ d : Datum, d.Opens c := by
  have hpadded {d : Datum} {cs : List Char} (h : Padded d cs) (rest : List Char) :
      ∃ front c tail, cs ++ rest = front ++ c :: tail ∧ IsBlanks front ∧
        ∃ d : Datum, d.Opens c := by
    cases h with
    | mk hfront h _ =>
      obtain ⟨c, tail, rfl, hc⟩ := h.head
      exact ⟨_, c, _, by rw [List.append_assoc, List.append_assoc]; rfl, hfront, _, hc⟩
  cases h with
  | @one _ cs h =>
    rw [← List.append_nil cs]
    exact hpadded h []
  | more h _ => exact hpadded h _

/-- Behind blanks, members begin with a name. -/
theorem Members.head {ms : List (String × Datum)} {cs : List Char} (h : Members ms cs) :
    ∃ front tail, cs = front ++ '"' :: tail ∧ IsBlanks front := by
  cases h with
  | one h =>
    cases h with
    | mk hfront _ _ _ => exact ⟨_, _, rfl, hfront⟩
  | more h _ =>
    cases h with
    | mk hfront _ _ _ => exact ⟨_, _, by rw [List.append_assoc]; rfl, hfront⟩

end Heads

section Steps

/-- Goes on where a step has stopped. -/
def resume : List Frame × List Char → Except Stop (List Char)
  | ([], rest) => .ok rest
  | (frame :: outer, rest) => skipFrom (frame :: outer) rest

theorem skipFrom_eq (frames : List Frame) (cs : List Char) :
    skipFrom frames cs = (skipStep frames cs).bind resume := by
  rw [skipFrom]
  split <;> next h => rw [h]; rfl

theorem skipFrom_blanks {front : List Char} (h : IsBlanks front) (frames : List Frame)
    (cs : List Char) : skipFrom frames (front ++ cs) = skipFrom frames cs := by
  rw [skipFrom_eq, skipFrom_eq, skipStep, skipStep, skipBlanks_append h]

theorem skipFrom_scalar {c : Char} {cs rest : List Char} (hblank : isBlank c = false)
    (hlist : c ≠ '[') (hobject : c ≠ '\x7b') (h : skipScalar c (cs ++ rest) = .ok rest)
    (frames : List Frame) :
    skipFrom frames (c :: cs ++ rest) = (settle frames rest).bind resume := by
  rw [skipFrom_eq, List.cons_append, skipStep, skipBlanks_cons hblank]
  simp only [if_neg hlist, if_neg hobject, h]

theorem settle_blanks {front : List Char} (h : IsBlanks front) (frame : Frame)
    (outer : List Frame) (cs : List Char) :
    settle (frame :: outer) (front ++ cs) = settle (frame :: outer) cs := by
  rw [settle, settle, skipBlanks_append h]

theorem settle_comma (frame : Frame) (outer : List Frame) (cs : List Char) :
    settle (frame :: outer) (',' :: cs) = toItem frame outer cs := by
  rw [settle, skipBlanks_cons (by decide)]
  exact if_pos rfl

theorem settle_closing (frame : Frame) (outer : List Frame) (cs : List Char) :
    settle (frame :: outer) (frame.closing :: cs) = settle outer cs := by
  cases frame <;> rw [settle, skipBlanks_cons (by decide)] <;> rfl

theorem enter_closing {front : List Char} (h : IsBlanks front) (frame : Frame)
    (outer : List Frame) (cs : List Char) :
    enter frame outer (front ++ frame.closing :: cs) = settle outer cs := by
  cases frame <;> rw [enter, skipBlanks_append_cons h (by decide)] <;> rfl

theorem enter_item {front : List Char} (h : IsBlanks front) {c : Char} (hblank : isBlank c = false)
    (frame : Frame) (hclosing : c ≠ frame.closing) (outer : List Frame) (cs : List Char) :
    enter frame outer (front ++ c :: cs) = toItem frame outer (c :: cs) := by
  rw [enter, skipBlanks_append_cons h hblank]
  exact if_neg hclosing

end Steps

section Values

/-- The brackets around items are left behind with them. -/
theorem skipFrom_list {ds : List Datum} {cs : List Char} (h : Items ds cs) (frames : List Frame)
    (rest : List Char) :
    skipFrom frames ('[' :: (cs ++ ']' :: rest)) = skipFrom (.list :: frames) (cs ++ ']' :: rest) := by
  obtain ⟨front, c, tail, rfl, hfront, d, hc⟩ := h.head
  obtain ⟨hblank, hclosing⟩ := hc.solid
  have hitem := enter_item hfront hblank .list hclosing frames (tail ++ ']' :: rest)
  rw [List.append_assoc, List.cons_append, skipFrom_blanks hfront, skipFrom_eq, skipStep,
    skipBlanks_cons (by decide)]
  exact congrArg (·.bind resume) hitem

theorem skipColon_append {front : List Char} (h : IsBlanks front) (cs : List Char) :
    skipColon (front ++ ':' :: cs) = .ok cs := by
  rw [skipColon, skipBlanks_append_cons h (by decide)]
  rfl

theorem skipName_append {front name body back : List Char} (hfront : IsBlanks front)
    (hname : Spells name body) (hback : IsBlanks back) (cs : List Char) :
    skipName (front ++ '"' :: (body ++ '"' :: (back ++ ':' :: cs))) = .ok cs := by
  rw [skipName, skipBlanks_append_cons hfront (by decide)]
  simp only [if_pos, skipString_spells hname]
  exact skipColon_append hback cs

theorem skipFrom_object {ms : List (String × Datum)} {cs : List Char} (h : Members ms cs)
    (frames : List Frame) (rest : List Char) :
    skipFrom frames ('\x7b' :: (cs ++ '\x7d' :: rest)) =
      (toItem .object frames (cs ++ '\x7d' :: rest)).bind resume := by
  obtain ⟨front, tail, rfl, hfront⟩ := h.head
  have hblank : isBlank '"' = false := by decide
  have hitem := enter_item hfront hblank .object (by decide) frames
    (tail ++ '\x7d' :: rest)
  have hname : toItem .object frames (front ++ '"' :: (tail ++ '\x7d' :: rest)) =
      toItem .object frames ('"' :: (tail ++ '\x7d' :: rest)) := by
    rw [toItem, toItem, skipName, skipName, skipBlanks_append hfront]
  rw [List.append_assoc, List.cons_append, hname, skipFrom_eq, skipStep,
    skipBlanks_cons (by decide)]
  exact congrArg (·.bind resume) hitem

mutual

/-- A value is passed, and what follows decides how to go on. The frames of the lists and objects
around it are as they were. -/
theorem Text.skip {rest : List Char} (hends : Ends rest) :
    ∀ {d : Datum} {cs : List Char}, Text d cs → ∀ frames : List Frame,
      skipFrom frames (cs ++ rest) = (settle frames rest).bind resume
  | _, _, .null, frames => skipFrom_scalar (by decide) (by decide) (by decide) rfl frames
  | _, _, .true, frames => skipFrom_scalar (by decide) (by decide) (by decide) rfl frames
  | _, _, .false, frames => skipFrom_scalar (by decide) (by decide) (by decide) rfl frames
  | _, _, .number h, frames => by
    obtain ⟨c, cs, rfl, hc, hscalar⟩ := skipScalar_numeral hends h
    have hsolid : isBlank c = false ∧ c ≠ ']' := Datum.Opens.solid (d := .number []) hc
    have hlist : c ≠ '[' := ne_of_starts hc (by decide)
    have hobject : c ≠ '\x7b' := ne_of_starts hc (by decide)
    exact skipFrom_scalar hsolid.1 hlist hobject hscalar frames
  | _, _, .string h, frames => by
    refine skipFrom_scalar (by decide) (by decide) (by decide) ?_ frames
    rw [List.append_assoc]
    exact skipString_spells h rest
  | _, _, .emptyArray h, frames => by
    rw [skipFrom_eq, List.cons_append, skipStep, skipBlanks_cons (by decide), List.append_assoc]
    exact congrArg (·.bind resume) (enter_closing h .list frames rest)
  | _, _, .array h, frames => by
    rw [List.cons_append, List.append_assoc, List.singleton_append, skipFrom_list h]
    exact Items.skip rest h frames
  | _, _, .emptyObject h, frames => by
    rw [skipFrom_eq, List.cons_append, skipStep, skipBlanks_cons (by decide), List.append_assoc]
    exact congrArg (·.bind resume) (enter_closing h .object frames rest)
  | _, _, .object h, frames => by
    rw [List.cons_append, List.append_assoc, List.singleton_append, skipFrom_object h]
    exact Members.skip rest h frames

theorem Padded.skip {rest : List Char} (hends : Ends rest) :
    ∀ {d : Datum} {cs : List Char}, Padded d cs → ∀ (frame : Frame) (outer : List Frame),
      skipFrom (frame :: outer) (cs ++ rest) = (settle (frame :: outer) rest).bind resume
  | _, _, .mk hfront h hback, frame, outer => by
    rw [List.append_assoc, List.append_assoc, skipFrom_blanks hfront,
      Text.skip (hends.append hback) h, settle_blanks hback]

theorem Items.skip (rest : List Char) : ∀ {ds : List Datum} {cs : List Char}, Items ds cs →
    ∀ outer : List Frame,
      skipFrom (.list :: outer) (cs ++ ']' :: rest) = (settle outer rest).bind resume
  | _, _, .one h, outer => by
    rw [Padded.skip (Ends.cons (by decide) _) h]
    exact congrArg (·.bind resume) (settle_closing .list outer rest)
  | _, _, .more h hrest, outer => by
    rw [List.append_assoc, List.cons_append, Padded.skip (Ends.cons (by decide) _) h, settle_comma]
    exact Items.skip rest hrest outer

theorem Member.skip {rest : List Char} (hends : Ends rest) :
    ∀ {m : String × Datum} {cs : List Char}, Member m cs → ∀ outer : List Frame,
      (toItem .object outer (cs ++ rest)).bind resume =
        (settle (.object :: outer) rest).bind resume
  | _, _, .mk hfront hname hback h, outer => by
    have hvalue := Padded.skip hends h .object outer
    rw [toItem, List.append_assoc, List.cons_append, List.append_assoc, List.cons_append,
      List.append_assoc, List.cons_append, skipName_append hfront hname hback]
    exact hvalue

theorem Members.skip (rest : List Char) : ∀ {ms : List (String × Datum)} {cs : List Char},
    Members ms cs → ∀ outer : List Frame,
      (toItem .object outer (cs ++ '\x7d' :: rest)).bind resume = (settle outer rest).bind resume
  | _, _, .one h, outer => by
    rw [Member.skip (Ends.cons (by decide) _) h]
    exact congrArg (·.bind resume) (settle_closing .object outer rest)
  | _, _, .more h hrest, outer => by
    rw [List.append_assoc, List.cons_append, Member.skip (Ends.cons (by decide) _) h, settle_comma]
    exact Members.skip rest hrest outer

end

/-- Exactly a value is passed, and the blanks in front of it. -/
theorem skipValue_append {d : Datum} {front cs rest : List Char} (hfront : IsBlanks front)
    (h : Text d cs) (hends : Ends rest) : skipValue (front ++ (cs ++ rest)) = .ok rest := by
  rw [skipValue, skipFrom_blanks hfront, Text.skip hends h]
  rfl

end Values

end PhpTokens.JsonText
