import PhpTokens.Proofs.JsonText.Skipping

/-! Reading JSON texts for their values. The reader finds the value of every JSON text, so a text
has only one. -/

namespace PhpTokens.JsonText

/-- A value without parts, by the first of its characters. -/
def scalar (c : Char) (cs : List Char) : Datum :=
  if c = 'n' then .null
  else if c = 't' then .bool true
  else if c = 'f' then .bool false
  else .number cs

/-- A name and the colon behind it. -/
def readName? (cs : List Char) : Option (String × List Char) :=
  match skipBlanks cs with
  | [] => none
  | c :: rest =>
    if c = '"' then do
      let (name, rest) ← (readString rest).toOption
      let rest ← (skipColon rest).toOption
      return (name, rest)
    else none

mutual

/-- The value that a text begins with behind its blanks, and what follows it. A value takes more
characters than each of its parts, so that the length of the text is enough fuel. -/
def readDatum? : (fuel : Nat) → List Char → Option (Datum × List Char)
  | 0, _ => none
  | fuel + 1, cs =>
    match skipBlanks cs with
    | [] => none
    | c :: rest =>
      if c = '"' then (readString rest).toOption.map fun (s, rest) => (.string s, rest)
      else if c = '[' then
        if (skipBlanks rest).head? = some ']' then some (.array [], (skipBlanks rest).tail)
        else (readItems? fuel rest).map fun (items, rest) => (.array items, rest)
      else if c = '\x7b' then
        if (skipBlanks rest).head? = some '\x7d' then some (.object [], (skipBlanks rest).tail)
        else (readMembers? fuel rest).map fun (members, rest) => (.object members, rest)
      else (skipScalar c rest).toOption.map fun after =>
        (scalar c ((c :: rest).take (rest.length + 1 - after.length)), after)

/-- The items of a list up to its closing bracket. -/
def readItems? : (fuel : Nat) → List Char → Option (List Datum × List Char)
  | 0, _ => none
  | fuel + 1, cs => do
    let (d, rest) ← readDatum? fuel cs
    match skipBlanks rest with
    | [] => none
    | c :: rest =>
      if c = ']' then some ([d], rest)
      else if c = ',' then (readItems? fuel rest).map fun (ds, rest) => (d :: ds, rest)
      else none

/-- The members of an object up to its closing bracket. -/
def readMembers? : (fuel : Nat) → List Char → Option (List (String × Datum) × List Char)
  | 0, _ => none
  | fuel + 1, cs => do
    let (name, rest) ← readName? cs
    let (d, rest) ← readDatum? fuel rest
    match skipBlanks rest with
    | [] => none
    | c :: rest =>
      if c = '\x7d' then some ([(name, d)], rest)
      else if c = ',' then (readMembers? fuel rest).map fun (ms, rest) => ((name, d) :: ms, rest)
      else none

end

/-- The value of a whole text. -/
def decode? (text : String) : Option Datum := do
  let (d, rest) ← readDatum? text.toList.length text.toList
  if (skipBlanks rest).isEmpty then some d else none

section Steps

variable {front cs rest : List Char} (hfront : IsBlanks front) (fuel : Nat)
include hfront

theorem readDatum?_scalar {c : Char} (hblank : isBlank c = false) (hquote : c ≠ '"')
    (hlist : c ≠ '[') (hobject : c ≠ '\x7b') (h : skipScalar c (cs ++ rest) = .ok rest) :
    readDatum? (fuel + 1) (front ++ (c :: cs ++ rest)) = some (scalar c (c :: cs), rest) := by
  have htake : (c :: (cs ++ rest)).take ((cs ++ rest).length + 1 - rest.length) = c :: cs := by
    have hlength : (cs ++ rest).length + 1 - rest.length = (c :: cs).length := by
      simp only [List.length_append, List.length_cons]
      omega
    rw [hlength, ← List.cons_append, List.take_left]
  rw [readDatum?, List.cons_append, skipBlanks_append_cons hfront hblank]
  simp only [if_neg hquote, if_neg hlist, if_neg hobject, h]
  exact congrArg (fun cs => some (scalar c cs, rest)) htake

theorem readDatum?_string {s : String} {body : List Char} (h : Spells s.toList body) :
    readDatum? (fuel + 1) (front ++ '"' :: (body ++ '"' :: rest)) = some (.string s, rest) := by
  rw [readDatum?, skipBlanks_append_cons hfront (by decide)]
  simp only [if_pos, readString_spells h, String.ofList_toList]
  rfl

theorem readDatum?_emptyArray (h : IsBlanks cs) :
    readDatum? (fuel + 1) (front ++ '[' :: (cs ++ ']' :: rest)) = some (.array [], rest) := by
  rw [readDatum?, skipBlanks_append_cons hfront (by decide)]
  simp only [skipBlanks_append_cons h (show isBlank ']' = false by decide)]
  rfl

theorem readDatum?_array {ds : List Datum} (h : Items ds cs)
    (hitems : readItems? fuel (cs ++ ']' :: rest) = some (ds, rest)) :
    readDatum? (fuel + 1) (front ++ '[' :: (cs ++ ']' :: rest)) = some (.array ds, rest) := by
  obtain ⟨inner, c, tail, rfl, hinner, d, hc⟩ := h.head
  obtain ⟨hblank, hclosing⟩ := hc.solid
  have hblanks : skipBlanks (inner ++ c :: tail ++ ']' :: rest) = c :: (tail ++ ']' :: rest) := by
    rw [List.append_assoc, List.cons_append, skipBlanks_append_cons hinner hblank]
  rw [readDatum?, skipBlanks_append_cons hfront (by decide)]
  have hhead : (c :: (tail ++ ']' :: rest)).head? ≠ some ']' := fun h => hclosing (Option.some.inj h)
  simp only [hblanks, if_neg hhead, hitems]
  rfl

theorem readDatum?_emptyObject (h : IsBlanks cs) :
    readDatum? (fuel + 1) (front ++ '\x7b' :: (cs ++ '\x7d' :: rest)) =
      some (.object [], rest) := by
  rw [readDatum?, skipBlanks_append_cons hfront (by decide)]
  simp only [skipBlanks_append_cons h (show isBlank '\x7d' = false by decide)]
  rfl

theorem readDatum?_object {ms : List (String × Datum)} (h : Members ms cs)
    (hmembers : readMembers? fuel (cs ++ '\x7d' :: rest) = some (ms, rest)) :
    readDatum? (fuel + 1) (front ++ '\x7b' :: (cs ++ '\x7d' :: rest)) =
      some (.object ms, rest) := by
  obtain ⟨inner, tail, rfl, hinner⟩ := h.head
  have hblanks : skipBlanks (inner ++ '"' :: tail ++ '\x7d' :: rest) =
      '"' :: (tail ++ '\x7d' :: rest) := by
    rw [List.append_assoc, List.cons_append, skipBlanks_append_cons hinner (by decide)]
  rw [readDatum?, skipBlanks_append_cons hfront (by decide)]
  simp only [hblanks, hmembers]
  rfl

end Steps

section Values

/-- A number is read as it is written. -/
theorem scalar_numeral {c : Char} (h : c = '-' ∨ isDigit c = true) (cs : List Char) :
    isBlank c = false ∧ c ≠ '"' ∧ c ≠ '[' ∧ c ≠ '\x7b' ∧ scalar c cs = .number cs := by
  have hne {d : Char} (hd : isDigit d = false ∧ '-' ≠ d) : c ≠ d := ne_of_starts h hd
  have hnumber : scalar c cs = .number cs := by
    rw [scalar, if_neg (hne (by decide)), if_neg (hne (by decide)), if_neg (hne (by decide))]
  exact ⟨(Datum.Opens.solid (d := .number []) h).1, hne (by decide), hne (by decide),
    hne (by decide), hnumber⟩

theorem readName?_append {name : String} {front body back : List Char} (hfront : IsBlanks front)
    (hname : Spells name.toList body) (hback : IsBlanks back) (cs : List Char) :
    readName? (front ++ '"' :: (body ++ '"' :: (back ++ ':' :: cs))) = some (name, cs) := by
  rw [readName?, skipBlanks_append_cons hfront (by decide)]
  simp only [if_pos, readString_spells hname, String.ofList_toList, Except.toOption,
    Option.bind_eq_bind, Option.bind_some, skipColon_append hback]
  rfl

mutual

/-- A value is read from any text that begins with a text of it. -/
theorem Text.read {rest : List Char} (hends : Ends rest) : ∀ {d : Datum} {cs : List Char},
    Text d cs → ∀ {fuel : Nat}, cs.length ≤ fuel → ∀ {front : List Char}, IsBlanks front →
      readDatum? fuel (front ++ (cs ++ rest)) = some (d, rest)
  | _, _, h, 0, hfuel, _, _ => by
    obtain ⟨c, tail, rfl, -⟩ := h.head
    cases hfuel
  | _, _, .null, fuel + 1, _, _, hfront =>
    readDatum?_scalar hfront fuel (by decide) (by decide) (by decide) (by decide) rfl
  | _, _, .true, fuel + 1, _, _, hfront =>
    readDatum?_scalar hfront fuel (by decide) (by decide) (by decide) (by decide) rfl
  | _, _, .false, fuel + 1, _, _, hfront =>
    readDatum?_scalar hfront fuel (by decide) (by decide) (by decide) (by decide) rfl
  | _, _, .number h, fuel + 1, _, _, hfront => by
    obtain ⟨c, cs, rfl, hc, hscalar⟩ := skipScalar_numeral hends h
    obtain ⟨hblank, hquote, hlist, hobject, hnumber⟩ := scalar_numeral hc (c :: cs)
    rw [readDatum?_scalar hfront fuel hblank hquote hlist hobject hscalar, hnumber]
  | _, _, .string h, fuel + 1, _, _, hfront => by
    rw [List.cons_append, List.append_assoc]
    exact readDatum?_string hfront fuel h
  | _, _, .emptyArray h, fuel + 1, _, _, hfront => by
    rw [List.cons_append, List.append_assoc]
    exact readDatum?_emptyArray hfront fuel h
  | _, _, .array h, fuel + 1, hfuel, _, hfront => by
    rw [List.cons_append, List.append_assoc]
    rw [List.length_cons, List.length_append] at hfuel
    exact readDatum?_array hfront fuel h (Items.read rest h (Nat.le_of_succ_le_succ hfuel))
  | _, _, .emptyObject h, fuel + 1, _, _, hfront => by
    rw [List.cons_append, List.append_assoc]
    exact readDatum?_emptyObject hfront fuel h
  | _, _, .object h, fuel + 1, hfuel, _, hfront => by
    rw [List.cons_append, List.append_assoc]
    rw [List.length_cons, List.length_append] at hfuel
    exact readDatum?_object hfront fuel h (Members.read rest h (Nat.le_of_succ_le_succ hfuel))

theorem Padded.read {rest : List Char} (hends : Ends rest) : ∀ {d : Datum} {cs : List Char},
    Padded d cs → ∀ {fuel : Nat}, cs.length ≤ fuel →
      ∃ back, IsBlanks back ∧ readDatum? fuel (cs ++ rest) = some (d, back ++ rest)
  | _, _, @Padded.mk _ _ _ back hfront h hback, fuel, hfuel => by
    refine ⟨back, hback, ?_⟩
    rw [List.append_assoc, List.append_assoc]
    refine Text.read (hends.append hback) h (Nat.le_trans ?_ hfuel) hfront
    simp only [List.length_append]
    omega

theorem Items.read (rest : List Char) : ∀ {ds : List Datum} {cs : List Char}, Items ds cs →
    ∀ {fuel : Nat}, cs.length < fuel → readItems? fuel (cs ++ ']' :: rest) = some (ds, rest)
  | _, _, .one h, fuel + 1, hfuel => by
    obtain ⟨back, hback, hread⟩ := Padded.read (Ends.cons (c := ']') (by decide) rest) h
      (Nat.le_of_lt_succ hfuel)
    simp only [readItems?, hread, Option.bind_eq_bind, Option.bind_some,
      skipBlanks_append_cons hback (show isBlank ']' = false by decide), if_true]
  | _, _, @Items.more _ _ cs tail h hrest, fuel + 1, hfuel => by
    simp only [List.length_append, List.length_cons] at hfuel
    obtain ⟨back, hback, hread⟩ :=
      Padded.read (Ends.cons (c := ',') (by decide) (tail ++ ']' :: rest)) h
        (show cs.length ≤ fuel by omega)
    have htail := Items.read rest hrest (show tail.length < fuel by omega)
    rw [List.append_assoc, List.cons_append]
    simp only [readItems?, hread, Option.bind_eq_bind, Option.bind_some,
      skipBlanks_append_cons hback (show isBlank ',' = false by decide), htail]
    rfl

theorem Member.read {rest : List Char} (hends : Ends rest) :
    ∀ {m : String × Datum} {cs : List Char}, Member m cs → ∀ {fuel : Nat}, cs.length ≤ fuel →
      ∃ value back, IsBlanks back ∧ readName? (cs ++ rest) = some (m.1, value) ∧
        readDatum? fuel value = some (m.2, back ++ rest)
  | _, _, @Member.mk _ _ _ _ _ cs hfront hname hback h, fuel, hfuel => by
    simp only [List.length_append, List.length_cons] at hfuel
    obtain ⟨back, hblanks, hread⟩ := Padded.read hends h (show cs.length ≤ fuel by omega)
    refine ⟨cs ++ rest, back, hblanks, ?_, hread⟩
    simp only [List.append_assoc, List.cons_append]
    exact readName?_append hfront hname hback _

theorem Members.read (rest : List Char) : ∀ {ms : List (String × Datum)} {cs : List Char},
    Members ms cs → ∀ {fuel : Nat}, cs.length < fuel →
      readMembers? fuel (cs ++ '\x7d' :: rest) = some (ms, rest)
  | _, _, .one h, fuel + 1, hfuel => by
    obtain ⟨value, back, hback, hname, hread⟩ :=
      Member.read (Ends.cons (c := '\x7d') (by decide) rest) h (Nat.le_of_lt_succ hfuel)
    simp only [readMembers?, hname, hread, Option.bind_eq_bind, Option.bind_some,
      skipBlanks_append_cons hback (show isBlank '\x7d' = false by decide), if_true]
  | _, _, @Members.more _ _ cs tail h hrest, fuel + 1, hfuel => by
    simp only [List.length_append, List.length_cons] at hfuel
    obtain ⟨value, back, hback, hname, hread⟩ :=
      Member.read (Ends.cons (c := ',') (by decide) (tail ++ '\x7d' :: rest)) h
        (show cs.length ≤ fuel by omega)
    have htail := Members.read rest hrest (show tail.length < fuel by omega)
    rw [List.append_assoc, List.cons_append]
    simp only [readMembers?, hname, hread, Option.bind_eq_bind, Option.bind_some,
      skipBlanks_append_cons hback (show isBlank ',' = false by decide), htail]
    rfl

end

/-- The value of a JSON text is read from it. -/
theorem decode?_of_isText {d : Datum} {text : String} (h : IsText d text) :
    decode? text = some d := by
  obtain ⟨back, hback, hread⟩ := Padded.read Ends.nil h (Nat.le_refl _)
  rw [List.append_nil, List.append_nil] at hread
  simp only [decode?, hread, Option.bind_eq_bind, Option.bind_some, skipBlanks_of_isBlanks hback]
  rfl

/-- A text is a JSON text of one value at most. -/
theorem IsText.unique {d other : Datum} {text : String} (h : IsText d text)
    (hother : IsText other text) : d = other := by
  have hread := decode?_of_isText h
  rw [decode?_of_isText hother] at hread
  exact (Option.some.inj hread).symm

end Values

end PhpTokens.JsonText
