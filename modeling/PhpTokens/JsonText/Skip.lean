import PhpTokens.JsonText.StringText

/-!
Passing over a JSON value of which nothing is wanted. The value is still checked to be JSON, but
its escapes need not name characters and its numbers may have any size. The open lists and objects
are kept in a list of their own, so a value may be nested to any depth.
-/
namespace PhpTokens.JsonText

def isDigit (c : Char) : Bool := '0' ≤ c && c ≤ '9'

def skipDigits (cs : List Char) : List Char := cs.dropWhile isDigit

theorem skipDigits_length (cs : List Char) : (skipDigits cs).length ≤ cs.length :=
  (List.dropWhile_suffix _).length_le

/-- What a backslash introduces, with any four digits. -/
def skipEscape : List Char → Except Stop (List Char)
  | [] => .error (.before .endInString [])
  | c :: cs =>
    if c = 'u' then (readHex cs).map (·.2)
    else if (shortEscape? c).isSome then .ok cs
    else .error (.about .invalidEscape (c :: cs))

theorem skipEscape_length {cs rest : List Char} (h : skipEscape cs = .ok rest) :
    rest.length < cs.length := by
  unfold skipEscape at h
  split at h
  · cases h
  · rename_i cs
    split at h
    · cases hhex : readHex cs with
      | error stop => simp [hhex, Except.map] at h
      | ok r =>
        have := readHex_length hhex
        simp only [hhex, Except.map] at h
        cases h
        simp only [List.length_cons]; omega
    · split at h
      · cases h; simp
      · cases h

/-- The rest of a string behind its opening quote. -/
def skipString (cs : List Char) : Except Stop (List Char) :=
  match cs with
  | [] => .error (.before .endInString [])
  | c :: cs =>
    if c = '"' then .ok cs
    else if c = '\\' then
      match _h : skipEscape cs with
      | .error stop => .error stop
      | .ok rest => skipString rest
    else if c.toNat < 0x20 then .error (.before .controlCharacter (c :: cs))
    else skipString cs
termination_by cs.length
decreasing_by
  · have := skipEscape_length _h
    simp only [List.length_cons]; omega
  · simp

theorem skipString_length {cs rest : List Char} (h : skipString cs = .ok rest) :
    rest.length < cs.length := by
  fun_induction skipString cs with
  | case1 => cases h
  | case2 => cases h; simp
  | case3 => cases h
  | case4 _ _ hescape _ ih =>
    have := skipEscape_length hescape
    have := ih h
    simp only [List.length_cons]; omega
  | case5 => cases h
  | case6 _ _ _ _ _ ih =>
    have := ih h
    simp only [List.length_cons]; omega

/-- The text without a sign at its front. -/
def dropSign : List Char → List Char
  | [] => []
  | c :: cs => if c = '+' ∨ c = '-' then cs else c :: cs

theorem dropSign_length (cs : List Char) : (dropSign cs).length ≤ cs.length := by
  unfold dropSign
  split
  · exact Nat.le_refl _
  · split <;> simp

/-- The exponent of a number behind its letter. -/
def skipExponent (cs : List Char) : Except Stop (List Char) :=
  match dropSign cs with
  | [] => .error (.before .invalidNumber [])
  | c :: rest =>
    if isDigit c then .ok (skipDigits rest) else .error (.about .invalidNumber (c :: rest))

theorem skipExponent_length {cs rest : List Char} (h : skipExponent cs = .ok rest) :
    rest.length ≤ cs.length := by
  have hle := dropSign_length cs
  unfold skipExponent at h
  split at h
  · cases h
  · rename_i rest' hcs
    simp only [hcs, List.length_cons] at hle
    split at h
    · cases h
      have := skipDigits_length rest'
      omega
    · cases h

/-- An exponent, if there is one. -/
def skipExponentPart (cs : List Char) : Except Stop (List Char) :=
  match cs with
  | [] => .ok []
  | c :: rest => if c = 'e' ∨ c = 'E' then skipExponent rest else .ok cs

theorem skipExponentPart_length {cs rest : List Char} (h : skipExponentPart cs = .ok rest) :
    rest.length ≤ cs.length := by
  unfold skipExponentPart at h
  split at h
  · cases h; exact Nat.le_refl _
  · split at h
    · exact Nat.le_succ_of_le (skipExponent_length h)
    · cases h; exact Nat.le_refl _

/-- What follows the integer digits of a number: a fraction with at least one digit and an
exponent, either of which may be absent. -/
def skipFraction (cs : List Char) : Except Stop (List Char) :=
  match cs with
  | [] => .ok []
  | c :: rest =>
    if c = '.' then
      if (rest.takeWhile isDigit).isEmpty then .error (.about .invalidNumber rest)
      else skipExponentPart (skipDigits rest)
    else skipExponentPart cs

theorem skipFraction_length {cs rest : List Char} (h : skipFraction cs = .ok rest) :
    rest.length ≤ cs.length := by
  unfold skipFraction at h
  split at h
  · cases h; exact Nat.le_refl _
  · rename_i rest'
    split at h
    · split at h
      · cases h
      · have := skipExponentPart_length h
        have := skipDigits_length rest'
        simp only [List.length_cons]; omega
    · exact skipExponentPart_length h

/-- A number behind its minus sign. A zero at the front is the only integer digit. -/
def skipNumber (cs : List Char) : Except Stop (List Char) :=
  match cs with
  | [] => .error (.before .invalidNumber [])
  | c :: rest =>
    if c = '0' then
      if (rest.takeWhile isDigit).isEmpty then skipFraction rest
      else .error (.about .invalidNumber rest)
    else if isDigit c then skipFraction (skipDigits rest)
    else .error (.about .invalidNumber (c :: rest))

theorem skipNumber_length {cs rest : List Char} (h : skipNumber cs = .ok rest) :
    rest.length < cs.length := by
  unfold skipNumber at h
  split at h
  · cases h
  · rename_i rest'
    split at h
    · split at h
      · exact Nat.lt_succ_of_le (skipFraction_length h)
      · cases h
    · split at h
      · have := skipFraction_length h
        have := skipDigits_length rest'
        simp only [List.length_cons]; omega
      · cases h

/-- A list or an object that has been opened. -/
inductive Frame where
  | list
  | object
  deriving DecidableEq, Repr

namespace Frame

def closing : Frame → Char
  | .list => ']'
  | .object => '\x7d'

def endCause : Frame → Cause
  | .list => .endInList
  | .object => .endInObject

def itemCause : Frame → Cause
  | .list => .expectedListEnd
  | .object => .expectedObjectEnd

end Frame

/-- The name of a member and the colon behind it. -/
def skipName (cs : List Char) : Except Stop (List Char) :=
  match skipBlanks cs with
  | [] => .error (.before .endInObject [])
  | c :: rest =>
    if c = '"' then
      match skipString rest with
      | .error stop => .error stop
      | .ok rest => skipColon rest
    else .error (.about .keyNotString (c :: rest))

theorem skipName_length {cs rest : List Char} (h : skipName cs = .ok rest) :
    rest.length < cs.length := by
  have hle := skipBlanks_length cs
  unfold skipName at h
  split at h
  · cases h
  · rename_i hcs
    simp only [hcs, List.length_cons] at hle
    split at h
    · split at h
      · cases h
      · rename_i hstring
        have := skipString_length hstring
        have := skipColon_length h
        omega
    · cases h

/-- Comes to stand before the next item of the innermost frame. -/
def toItem (frame : Frame) (outer : List Frame) (cs : List Char) :
    Except Stop (List Frame × List Char) :=
  match frame with
  | .list => .ok (.list :: outer, cs)
  | .object => (skipName cs).map fun rest => (.object :: outer, rest)

theorem toItem_length {frame : Frame} {outer frames : List Frame} {cs rest : List Char}
    (h : toItem frame outer cs = .ok (frames, rest)) : rest.length ≤ cs.length := by
  cases frame with
  | list => cases h; exact Nat.le_refl _
  | object =>
    simp only [toItem] at h
    cases hname : skipName cs with
    | error stop => simp [hname, Except.map] at h
    | ok r =>
      simp only [hname, Except.map] at h
      cases h
      exact Nat.le_of_lt (skipName_length hname)

/-- Goes on behind a finished value: closes the frames that end here and comes to stand before
the next value, or behind the outermost one if no frame is left. -/
def settle : List Frame → List Char → Except Stop (List Frame × List Char)
  | [], cs => .ok ([], cs)
  | frame :: outer, cs =>
    match skipBlanks cs with
    | [] => .error (.before frame.endCause [])
    | c :: rest =>
      if c = ',' then toItem frame outer rest
      else if c = frame.closing then settle outer rest
      else .error (.about frame.itemCause (c :: rest))

theorem settle_length {opened frames : List Frame} {cs rest : List Char}
    (h : settle opened cs = .ok (frames, rest)) : rest.length ≤ cs.length := by
  induction opened generalizing cs with
  | nil => cases h; exact Nat.le_refl _
  | cons frame outer ih =>
    have hle := skipBlanks_length cs
    simp only [settle] at h
    split at h
    · cases h
    · rename_i hcs
      simp only [hcs, List.length_cons] at hle
      split at h
      · have := toItem_length h
        omega
      · split at h
        · have := ih h
          omega
        · cases h

/-- Goes on behind the bracket that opens a frame. -/
def enter (frame : Frame) (outer : List Frame) (cs : List Char) :
    Except Stop (List Frame × List Char) :=
  match skipBlanks cs with
  | [] => .error (.before frame.endCause [])
  | c :: rest =>
    if c = frame.closing then settle outer rest else toItem frame outer (c :: rest)

theorem enter_length {frame : Frame} {outer frames : List Frame} {cs rest : List Char}
    (h : enter frame outer cs = .ok (frames, rest)) : rest.length ≤ cs.length := by
  have hle := skipBlanks_length cs
  unfold enter at h
  split at h
  · cases h
  · rename_i hcs
    simp only [hcs, List.length_cons] at hle
    split at h
    · have := settle_length h
      omega
    · have := toItem_length h
      simp only [List.length_cons] at this
      omega

/-- Passes a value without parts, of which `c` is the first character. -/
def skipScalar (c : Char) (rest : List Char) : Except Stop (List Char) :=
  if c = 'n' then expectWord ['u', 'l', 'l'] rest
  else if c = 't' then expectWord ['r', 'u', 'e'] rest
  else if c = 'f' then expectWord ['a', 'l', 's', 'e'] rest
  else if c = '-' then skipNumber rest
  else if isDigit c then skipNumber (c :: rest)
  else if c = '"' then skipString rest
  else .error (.about .expectedValue (c :: rest))

theorem skipScalar_length {c : Char} {cs rest : List Char} (h : skipScalar c cs = .ok rest) :
    rest.length ≤ cs.length := by
  unfold skipScalar at h
  split at h
  · exact expectWord_length h
  · split at h
    · exact expectWord_length h
    · split at h
      · exact expectWord_length h
      · split at h
        · exact Nat.le_of_lt (skipNumber_length h)
        · split at h
          · exact Nat.le_of_lt_succ (skipNumber_length h)
          · split at h
            · exact Nat.le_of_lt (skipString_length h)
            · cases h

/-- Passes the start of the next value: all of it if it has no parts, else its opening bracket. -/
def skipStep (frames : List Frame) (cs : List Char) : Except Stop (List Frame × List Char) :=
  match skipBlanks cs with
  | [] => .error (.before .endInValue [])
  | c :: rest =>
    if c = '[' then enter .list frames rest
    else if c = '\x7b' then enter .object frames rest
    else
      match skipScalar c rest with
      | .error stop => .error stop
      | .ok rest => settle frames rest

theorem skipStep_length {frames frames' : List Frame} {cs rest : List Char}
    (h : skipStep frames cs = .ok (frames', rest)) : rest.length < cs.length := by
  have hle := skipBlanks_length cs
  unfold skipStep at h
  split at h
  · cases h
  · rename_i hcs
    simp only [hcs, List.length_cons] at hle
    split at h
    · have := enter_length h
      omega
    · split at h
      · have := enter_length h
        omega
      · split at h
        · cases h
        · rename_i hscalar
          have := skipScalar_length hscalar
          have := settle_length h
          omega

/-- Passes values until no frame is open. -/
def skipFrom (frames : List Frame) (cs : List Char) : Except Stop (List Char) :=
  match _h : skipStep frames cs with
  | .error stop => .error stop
  | .ok ([], rest) => .ok rest
  | .ok (frame :: outer, rest) => skipFrom (frame :: outer) rest
termination_by cs.length
decreasing_by exact skipStep_length _h

theorem skipFrom_length {frames : List Frame} {cs rest : List Char}
    (h : skipFrom frames cs = .ok rest) : rest.length < cs.length := by
  fun_induction skipFrom frames cs with
  | case1 => cases h
  | case2 _ _ rest' hstep => cases h; exact skipStep_length hstep
  | case3 _ _ frame outer rest' hstep ih =>
    have := skipStep_length hstep
    have := ih h
    omega

/-- Passes one value. -/
def skipValue (cs : List Char) : Except Stop (List Char) := skipFrom [] cs

theorem skipValue_length {cs rest : List Char} (h : skipValue cs = .ok rest) :
    rest.length < cs.length :=
  skipFrom_length h

end PhpTokens.JsonText
