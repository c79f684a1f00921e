import PhpTokens.Json
import PhpTokens.JsonText.WrongType
import PhpTokens.Rules.Basic

/-!
Rules as JSON text. They are written as an object whose members set choices by name, in any order;
a choice may be set once, and members with other names are passed over. They may also be written
as a list of settings in the order of the choices. What is not set keeps its default. A setting is
the word for a rule, or an object with that word as its only name and null as its value.
-/
namespace PhpTokens.Rules
open JsonText (Stop Cause skipBlanks)

/-- The setting that a word names, when `rest` follows the word. -/
def settingOf (field : Field) (word : String) (rest : List Char) : Except Stop Setting :=
  match field.ofWord? word with
  | some setting => .ok setting
  | none => .error (.before (.unknownWord word (field.settings.map Setting.word)) rest)

/-- The null that stands for no value. -/
def readUnit (cs : List Char) : Except Stop (List Char) :=
  match skipBlanks cs with
  | [] => .error (.before .endInValue [])
  | c :: rest =>
    if c = 'n' then JsonText.expectWord ['u', 'l', 'l'] rest
    else .error (JsonText.wrongType "unit" (c :: rest))

/-- A setting written as an object, behind its opening bracket. -/
def readTagged (field : Field) (cs : List Char) : Except Stop (Setting × List Char) :=
  match skipBlanks cs with
  | [] => .error (.before .endInObject [])
  | c :: rest =>
    if c = '"' then do
      let (word, rest) ← JsonText.readString rest
      let setting ← settingOf field word rest
      let rest ← JsonText.skipColon rest
      let rest ← readUnit rest
      match skipBlanks rest with
      | [] => .error (.before .endInObject [])
      | c :: rest =>
        if c = '\x7d' then .ok (setting, rest) else .error (.before .expectedValue (c :: rest))
    else .error (.about (if c = '\x7d' then .expectedValue else .keyNotString) (c :: rest))

/-- A setting in either form. -/
def readSetting (field : Field) (cs : List Char) : Except Stop (Setting × List Char) :=
  match skipBlanks cs with
  | [] => .error (.before .endInValue [])
  | c :: rest =>
    if c = '"' then do
      let (word, rest) ← JsonText.readString rest
      return (← settingOf field word rest, rest)
    else if c = '\x7b' then readTagged field rest
    else .error (.about .expectedValue (c :: rest))

/-- The place of a failure that is only noticed when the object is left: behind the blanks that
come next, and behind the closing bracket if that follows them. -/
def afterObject (cs : List Char) : List Char :=
  match skipBlanks cs with
  | '\x7d' :: rest => rest
  | rest => rest

/-- The value of the member with the name given, behind that name. -/
def readMember (rules : Rules) (seen : List Field) (name : String) (cs : List Char) :
    Except Stop (Rules × List Field × List Char) :=
  match Field.ofName? name with
  | none => do
    let rest ← JsonText.skipColon cs
    return (rules, seen, ← JsonText.skipValue rest)
  | some field =>
    if field ∈ seen then .error (.before (.duplicateField name) (afterObject cs))
    else do
      let rest ← JsonText.skipColon cs
      let (setting, rest) ← readSetting field rest
      return (rules.set setting, field :: seen, rest)

/-- Comes to stand behind the quote that opens the name of the next member, or behind the bracket
that closes the object; the mark tells which. -/
def toName (isFirst : Bool) (cs : List Char) : Except Stop (Bool × List Char) :=
  match skipBlanks cs with
  | [] => .error (.before .endInObject [])
  | c :: rest =>
    if c = '\x7d' then .ok (false, rest)
    else if isFirst then
      if c = '"' then .ok (true, rest) else .error (.about .keyNotString (c :: rest))
    else if c = ',' then
      match skipBlanks rest with
      | [] => .error (.before .endInValue [])
      | c :: rest =>
        if c = '"' then .ok (true, rest)
        else .error (.about (if c = '\x7d' then .trailingComma else .keyNotString) (c :: rest))
    else .error (.about .expectedObjectEnd (c :: rest))

theorem toName_length {isFirst isName : Bool} {cs rest : List Char}
    (h : toName isFirst cs = .ok (isName, rest)) : rest.length < cs.length := by
  have hle := JsonText.skipBlanks_length cs
  unfold toName at h
  split at h
  · cases h
  · rename_i c rest' hcs
    simp only [hcs, List.length_cons] at hle
    split at h
    · cases h; omega
    · split at h
      · split at h
        · cases h; omega
        · cases h
      · split at h
        · have hle' := JsonText.skipBlanks_length rest'
          split at h
          · cases h
          · rename_i hrest
            simp only [hrest, List.length_cons] at hle'
            split at h
            · cases h; omega
            · cases h
        · cases h

theorem readUnit_length {cs rest : List Char} (h : readUnit cs = .ok rest) :
    rest.length ≤ cs.length := by
  have hle := JsonText.skipBlanks_length cs
  unfold readUnit at h
  split at h
  · cases h
  · rename_i hcs
    simp only [hcs, List.length_cons] at hle
    split at h
    · have := JsonText.expectWord_length h
      omega
    · cases h

theorem readTagged_length {field : Field} {cs rest : List Char} {setting : Setting}
    (h : readTagged field cs = .ok (setting, rest)) : rest.length ≤ cs.length := by
  have hle := JsonText.skipBlanks_length cs
  unfold readTagged at h
  split at h
  · cases h
  · rename_i hcs
    simp only [hcs, List.length_cons] at hle
    split at h
    · obtain ⟨⟨word, afterWord⟩, hstring, h⟩ := JsonText.ok_of_bind h
      obtain ⟨found, _, h⟩ := JsonText.ok_of_bind h
      obtain ⟨afterColon, hcolon, h⟩ := JsonText.ok_of_bind h
      obtain ⟨afterUnit, hunit, h⟩ := JsonText.ok_of_bind h
      have := JsonText.readString_length hstring
      have := JsonText.skipColon_length hcolon
      have := readUnit_length hunit
      have hend := JsonText.skipBlanks_length afterUnit
      split at h
      · cases h
      · rename_i hrest
        simp only [hrest, List.length_cons] at hend
        split at h
        · cases h; omega
        · cases h
    · cases h

theorem readSetting_length {field : Field} {cs rest : List Char} {setting : Setting}
    (h : readSetting field cs = .ok (setting, rest)) : rest.length ≤ cs.length := by
  have hle := JsonText.skipBlanks_length cs
  unfold readSetting at h
  split at h
  · cases h
  · rename_i hcs
    simp only [hcs, List.length_cons] at hle
    split at h
    · obtain ⟨⟨word, afterWord⟩, hstring, h⟩ := JsonText.ok_of_bind h
      obtain ⟨found, _, h⟩ := JsonText.ok_of_bind h
      have := JsonText.readString_length hstring
      cases h; omega
    · split at h
      · have := readTagged_length h
        omega
      · cases h

theorem readMember_length {rules rules' : Rules} {seen seen' : List Field} {name : String}
    {cs rest : List Char} (h : readMember rules seen name cs = .ok (rules', seen', rest)) :
    rest.length ≤ cs.length := by
  unfold readMember at h
  split at h
  · obtain ⟨afterColon, hcolon, h⟩ := JsonText.ok_of_bind h
    obtain ⟨afterValue, hvalue, h⟩ := JsonText.ok_of_bind h
    have := JsonText.skipColon_length hcolon
    have := JsonText.skipValue_length hvalue
    cases h; omega
  · split at h
    · cases h
    · obtain ⟨afterColon, hcolon, h⟩ := JsonText.ok_of_bind h
      obtain ⟨⟨found, afterSetting⟩, hsetting, h⟩ := JsonText.ok_of_bind h
      have := JsonText.skipColon_length hcolon
      have := readSetting_length hsetting
      cases h; omega

/-- One more member, its name and its value, behind the quote that opens the name. -/
def readNamed (rules : Rules) (seen : List Field) (cs : List Char) :
    Except Stop (Rules × List Field × List Char) :=
  match JsonText.readString cs with
  | .error stop => .error stop
  | .ok (name, rest) => readMember rules seen name rest

theorem readNamed_length {rules rules' : Rules} {seen seen' : List Field}
    {cs rest : List Char} (h : readNamed rules seen cs = .ok (rules', seen', rest)) :
    rest.length < cs.length := by
  unfold readNamed at h
  split at h
  · cases h
  · rename_i hstring
    have hlt := JsonText.readString_length hstring
    have hle := readMember_length h
    omega

/-- The members of an object up to its end; `seen` holds the choices that are set already. -/
def readMembers (rules : Rules) (seen : List Field) (isFirst : Bool) (cs : List Char) :
    Except Stop (Rules × List Char) :=
  match _hname : toName isFirst cs with
  | .error stop => .error stop
  | .ok (false, rest) => .ok (rules, rest)
  | .ok (true, rest) =>
    match _hmember : readNamed rules seen rest with
    | .error stop => .error stop
    | .ok (rules, seen, rest) => readMembers rules seen false rest
termination_by cs.length
decreasing_by
  have := toName_length _hname
  have := readNamed_length _hmember
  omega

/-- Comes to stand before the next item of a list, or gives nothing if the list ends here. -/
def toItem? (isFirst : Bool) (cs : List Char) : Except Stop (Option (List Char)) :=
  match skipBlanks cs with
  | [] => .error (.before .endInList [])
  | c :: rest =>
    if c = ']' then .ok none
    else if isFirst then .ok (some (c :: rest))
    else if c = ',' then
      match skipBlanks rest with
      | [] => .error (.before .endInValue [])
      | c :: rest =>
        if c = ']' then .error (.about .trailingComma (c :: rest)) else .ok (some (c :: rest))
    else .error (.about .expectedListEnd (c :: rest))

/-- The end of a list that has all its items. -/
def closeList (cs : List Char) : Except Stop (List Char) :=
  match skipBlanks cs with
  | [] => .error (.before .endInList [])
  | c :: rest =>
    if c = ']' then .ok rest
    else if c = ',' then
      let rest := skipBlanks rest
      .error (.about (if rest.head? == some ']' then .trailingComma else .trailingText) rest)
    else .error (.about .trailingText (c :: rest))

/-- The items of a list, which set the choices of `fields` in turn. -/
def readItems (rules : Rules) (isFirst : Bool) (cs : List Char) :
    (fields : List Field) → Except Stop (Rules × List Char)
  | [] => (closeList cs).map (rules, ·)
  | field :: fields => do
    match ← toItem? isFirst cs with
    | none => (closeList cs).map (rules, ·)
    | some rest =>
      let (setting, rest) ← readSetting field rest
      readItems (rules.set setting) false rest fields

/-- The rules that a value describes, and what follows it. -/
def readRules (cs : List Char) : Except Stop (Rules × List Char) :=
  match skipBlanks cs with
  | [] => .error (.before .endInValue [])
  | c :: rest =>
    if c = '[' then readItems {} true rest Field.all
    else if c = '\x7b' then readMembers {} [] true rest
    else .error (JsonText.wrongType "struct LexerConfig" (c :: rest))

/-- The rules that the whole of a text describes. -/
def ofText (cs : List Char) : Except Stop Rules := do
  let (rules, rest) ← readRules cs
  match skipBlanks rest with
  | [] => return rules
  | rest => throw (.about .trailingText rest)

/-- The rules that a JSON text describes, or why it describes none. -/
def ofJson (text : String) : Except JsonText.Refusal Rules :=
  match ofText text.toList with
  | .ok rules => .ok rules
  | .error stop => .error (.ofStop text.toList stop)

/-- The rules as a JSON value, with all choices in order. -/
def toJson (r : Rules) : Json :=
  .object (Field.all.map fun f => (f.name, .string (r.setting f).word))

end PhpTokens.Rules
