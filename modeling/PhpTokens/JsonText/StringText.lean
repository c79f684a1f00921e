import PhpTokens.JsonText.Stop

/-!
The pieces of JSON text that need no value: blanks, fixed words, and strings with their escapes.
Each reader takes the unread text and gives back what follows the piece; a reader that succeeds
has made the text shorter.
-/
namespace PhpTokens.JsonText

def isBlank (c : Char) : Bool := c == ' ' || c == '\n' || c == '\t' || c == '\r'

def skipBlanks (cs : List Char) : List Char := cs.dropWhile isBlank

theorem skipBlanks_length (cs : List Char) : (skipBlanks cs).length ≤ cs.length :=
  (List.dropWhile_suffix _).length_le

/-- Passes the rest of a fixed word. -/
def expectWord : (word : List Char) → List Char → Except Stop (List Char)
  | [], cs => .ok cs
  | _ :: _, [] => .error (.before .endInValue [])
  | e :: es, c :: cs =>
    if c = e then expectWord es cs else .error (.about .expectedIdent (c :: cs))

theorem expectWord_length {word cs rest : List Char} (h : expectWord word cs = .ok rest) :
    rest.length ≤ cs.length := by
  induction word generalizing cs with
  | nil => cases h; exact Nat.le_refl _
  | cons e es ih =>
    cases cs with
    | nil => cases h
    | cons c cs =>
      simp only [expectWord] at h
      split at h
      · exact Nat.le_succ_of_le (ih h)
      · cases h

def hexValue? (c : Char) : Option Nat :=
  if '0' ≤ c ∧ c ≤ '9' then some (c.toNat - '0'.toNat)
  else if 'a' ≤ c ∧ c ≤ 'f' then some (c.toNat - 'a'.toNat + 10)
  else if 'A' ≤ c ∧ c ≤ 'F' then some (c.toNat - 'A'.toNat + 10)
  else none

/-- Four hexadecimal digits. They are counted off as four bytes before they are looked at. -/
def readHex (cs : List Char) : Except Stop (Nat × List Char) :=
  match cs with
  | a :: b :: c :: d :: rest =>
    match hexValue? a, hexValue? b, hexValue? c, hexValue? d with
    | some a, some b, some c, some d => .ok (((a * 16 + b) * 16 + c) * 16 + d, rest)
    | _, _, _, _ => .error ⟨.invalidEscape, Utf8.size cs - 4⟩
  | _ =>
    if Utf8.size cs < 4 then .error (.before .endInString [])
    else .error ⟨.invalidEscape, Utf8.size cs - 4⟩

theorem readHex_length {cs rest : List Char} {n : Nat} (h : readHex cs = .ok (n, rest)) :
    rest.length < cs.length := by
  unfold readHex at h
  split at h
  · split at h
    · cases h; simp only [List.length_cons]; omega
    · cases h
  · split at h <;> cases h

/-- The character that a letter after a backslash stands for. -/
def shortEscape? (c : Char) : Option Char :=
  if c = '"' ∨ c = '\\' ∨ c = '/' then some c
  else if c = 'b' then some '\x08'
  else if c = 'f' then some '\x0c'
  else if c = 'n' then some '\n'
  else if c = 'r' then some '\r'
  else if c = 't' then some '\t'
  else none

def isLeadingSurrogate (n : Nat) : Bool := 0xd800 ≤ n && n ≤ 0xdbff

def isTrailingSurrogate (n : Nat) : Bool := 0xdc00 ≤ n && n ≤ 0xdfff

/-- The character that a surrogate pair stands for. -/
def ofPair (leading trailing : Nat) : Char :=
  Char.ofNat (0x10000 + (leading - 0xd800) * 0x400 + (trailing - 0xdc00))

/-- The second half of a surrogate pair, which must follow the first half at once. -/
def readPair (leading : Nat) : List Char → Except Stop (Char × List Char)
  | [] => .error (.before .endInString [])
  | c :: cs =>
    if c = '\\' then
      match cs with
      | [] => .error (.before .endInString [])
      | u :: cs =>
        if u = 'u' then
          match readHex cs with
          | .error stop => .error stop
          | .ok (trailing, rest) =>
            if isTrailingSurrogate trailing then
              .ok (ofPair leading trailing, rest)
            else .error (.before .loneSurrogate rest)
        else .error (.about .brokenPair (u :: cs))
    else .error (.about .brokenPair (c :: cs))

theorem readPair_length {leading : Nat} {cs rest : List Char} {c : Char}
    (h : readPair leading cs = .ok (c, rest)) : rest.length < cs.length := by
  unfold readPair at h
  split at h
  · cases h
  · split at h
    · split at h
      · cases h
      · split at h
        · split at h
          · cases h
          · rename_i hhex
            split at h
            · simp only [Except.ok.injEq, Prod.mk.injEq] at h
              obtain ⟨-, rfl⟩ := h
              have := readHex_length hhex
              simp only [List.length_cons]; omega
            · cases h
        · cases h
    · cases h

/-- What a backslash introduces. -/
def readEscape : List Char → Except Stop (Char × List Char)
  | [] => .error (.before .endInString [])
  | c :: cs =>
    if c = 'u' then
      match readHex cs with
      | .error stop => .error stop
      | .ok (n, rest) =>
        if isTrailingSurrogate n then .error (.before .loneSurrogate rest)
        else if isLeadingSurrogate n then readPair n rest
        else .ok (Char.ofNat n, rest)
    else
      match shortEscape? c with
      | some d => .ok (d, cs)
      | none => .error (.about .invalidEscape (c :: cs))

theorem readEscape_length {cs rest : List Char} {c : Char}
    (h : readEscape cs = .ok (c, rest)) : rest.length < cs.length := by
  unfold readEscape at h
  split at h
  · cases h
  · split at h
    · split at h
      · cases h
      · rename_i hhex
        have := readHex_length hhex
        split at h
        · cases h
        · split at h
          · have := readPair_length h
            simp only [List.length_cons]; omega
          · simp only [Except.ok.injEq, Prod.mk.injEq] at h
            obtain ⟨-, rfl⟩ := h
            simp only [List.length_cons]; omega
    · split at h
      · cases h; simp
      · cases h

/-- The rest of a string behind its opening quote; `done` holds what has been read of it, the
last character first. -/
def readStringFrom (done : List Char) (cs : List Char) : Except Stop (String × List Char) :=
  match cs with
  | [] => .error (.before .endInString [])
  | c :: cs =>
    if c = '"' then .ok (String.ofList done.reverse, cs)
    else if c = '\\' then
      match _h : readEscape cs with
      | .error stop => .error stop
      | .ok (d, rest) => readStringFrom (d :: done) rest
    else if c.toNat < 0x20 then .error (.before .controlCharacter cs)
    else readStringFrom (c :: done) cs
termination_by cs.length
decreasing_by
  · have := readEscape_length _h
    simp only [List.length_cons]; omega
  · simp

/-- A string behind its opening quote, up to and with the closing one. -/
def readString (cs : List Char) : Except Stop (String × List Char) := readStringFrom [] cs

theorem readStringFrom_length {done cs rest : List Char} {s : String}
    (h : readStringFrom done cs = .ok (s, rest)) : rest.length < cs.length := by
  fun_induction readStringFrom done cs with
  | case1 => cases h
  | case2 => cases h; simp
  | case3 => cases h
  | case4 _ _ _ _ hescape _ ih =>
    have := readEscape_length hescape
    have := ih h
    simp only [List.length_cons]; omega
  | case5 => cases h
  | case6 _ _ _ _ _ _ ih =>
    have := ih h
    simp only [List.length_cons]; omega

theorem readString_length {cs rest : List Char} {s : String}
    (h : readString cs = .ok (s, rest)) : rest.length < cs.length :=
  readStringFrom_length h

/-- The colon between a name and its value. -/
def skipColon (cs : List Char) : Except Stop (List Char) :=
  match skipBlanks cs with
  | [] => .error (.before .endInObject [])
  | c :: rest => if c = ':' then .ok rest else .error (.about .expectedColon (c :: rest))

theorem skipColon_length {cs rest : List Char} (h : skipColon cs = .ok rest) :
    rest.length < cs.length := by
  have hle := skipBlanks_length cs
  unfold skipColon at h
  split at h
  · cases h
  · rename_i hcs
    simp only [hcs, List.length_cons] at hle
    split at h
    · cases h; omega
    · cases h

end PhpTokens.JsonText
