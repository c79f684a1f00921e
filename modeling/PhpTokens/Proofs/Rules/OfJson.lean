import PhpTokens.Proofs.JsonText.Skipping
import PhpTokens.Proofs.JsonText.Written
import PhpTokens.Rules.OfJson

/-! Rules as JSON objects. What the members of an object come to is a matter of their names and
values alone: reading the text of an object, with blanks anywhere and with members that are passed
over, gives what setting one member after another gives. -/

namespace PhpTokens.Rules

open JsonText

def isNull : Datum → Bool
  | .null => true
  | _ => false

/-- The setting that a value stands for: a word, alone or as the only name of an object, where it
has no value. -/
def settingOfDatum? (field : Field) : Datum → Option Setting
  | .string word => field.ofWord? word
  | .object [(word, d)] => if isNull d then field.ofWord? word else none
  | _ => none

/-- Sets the choice that a member names, if it names one that is not set yet. -/
def setMember? (state : Rules × List Field) (m : String × Datum) : Option (Rules × List Field) :=
  match Field.ofName? m.1 with
  | none => some state
  | some field =>
    if field ∈ state.2 then none
    else (settingOfDatum? field m.2).map fun setting =>
      (state.1.set setting, field :: state.2)

/-- The rules that the members of an object come to. -/
def ofMembers? (members : List (String × Datum)) : Option Rules :=
  (members.foldlM setMember? ({}, [])).map Prod.fst

section Settings

theorem toOption_bind {α β : Type} (x : Except Stop α) (f : α → Except Stop β) :
    (x >>= f).toOption = x.toOption.bind fun a => (f a).toOption := by
  cases x <;> rfl

theorem toOption_settingOf (field : Field) (word : String) (rest : List Char) :
    (settingOf field word rest).toOption = field.ofWord? word := by
  rw [settingOf]
  cases field.ofWord? word <;> rfl

variable {front rest : List Char} (hfront : IsBlanks front)
include hfront

theorem readUnit_null : readUnit (front ++ ('n' :: 'u' :: 'l' :: 'l' :: rest)) = .ok rest := by
  rw [readUnit, skipBlanks_append_cons hfront (by decide)]
  rfl

/-- Only the null is taken where no value is wanted. -/
theorem readUnit_text {d : Datum} {cs : List Char} (h : Text d cs) :
    (readUnit (front ++ (cs ++ rest))).toOption = if isNull d then some rest else none := by
  obtain ⟨c, tail, rfl, hc⟩ := h.head
  cases d with
  | null =>
    cases h
    exact congrArg Except.toOption (readUnit_null hfront)
  | bool _ | number _ | string _ | array _ | object _ =>
    have hne : c ≠ 'n' := fun hn => nomatch hc.inv.1 hn
    rw [readUnit, List.cons_append, skipBlanks_append_cons hfront hc.solid.1]
    exact congrArg Except.toOption (if_neg hne)

omit hfront

/-- What follows the only member of a tagged setting. -/
def closeTag (setting : Setting) (cs : List Char) : Except Stop (Setting × List Char) :=
  match skipBlanks cs with
  | [] => .error (.before .endInObject [])
  | c :: rest =>
    if c = '\x7d' then .ok (setting, rest) else .error (.before .expectedValue (c :: rest))

theorem readTagged_name (hfront : IsBlanks front) {name : String} {body back : List Char}
    (hname : Spells name.toList body) (hback : IsBlanks back) (field : Field) (cs : List Char) :
    (readTagged field (front ++ '"' :: (body ++ '"' :: (back ++ ':' :: cs)))).toOption =
      (field.ofWord? name).bind fun setting =>
        (readUnit cs).toOption.bind fun rest => (closeTag setting rest).toOption := by
  rw [readTagged, skipBlanks_append_cons hfront (by decide)]
  simp only [if_pos, readString_spells hname, String.ofList_toList]
  change (settingOf field name _ >>= fun setting => skipColon _ >>= fun rest => _).toOption = _
  rw [toOption_bind, toOption_settingOf, skipColon_append hback]
  congr 1
  funext setting
  exact toOption_bind (readUnit cs) (closeTag setting)

theorem closeTag_closing (hfront : IsBlanks front) (setting : Setting) :
    (closeTag setting (front ++ '\x7d' :: rest)).toOption = some (setting, rest) := by
  rw [closeTag, skipBlanks_append_cons hfront (by decide)]
  rfl

theorem closeTag_comma (hfront : IsBlanks front) (setting : Setting) :
    (closeTag setting (front ++ ',' :: rest)).toOption = none := by
  rw [closeTag, skipBlanks_append_cons hfront (by decide)]
  rfl

/-- The first member makes the setting, if it has no value; the object has to end behind it. -/
theorem readTagged_member {m : String × Datum} {cs : List Char} (h : Member m cs) (field : Field) :
    ∃ after, IsBlanks after ∧ ∀ rest, (readTagged field (cs ++ rest)).toOption =
      (settingOfDatum? field (.object [m])).bind fun setting =>
        (closeTag setting (after ++ rest)).toOption := by
  cases h with
  | @mk name d _ _ _ _ hfront hname hback h =>
    cases h with
    | @mk _ _ _ after hbefore h hafter =>
      refine ⟨after, hafter, fun rest => ?_⟩
      simp only [List.append_assoc, List.cons_append]
      rw [readTagged_name hfront hname hback, readUnit_text hbefore h, settingOfDatum?]
      cases isNull d with
      | false => simp
      | true => rfl

/-- An object is a setting if it has one member and that has no value. -/
theorem readTagged_members {ms : List (String × Datum)} {cs : List Char} (h : Members ms cs)
    (field : Field) :
    (readTagged field (cs ++ '\x7d' :: rest)).toOption =
      (settingOfDatum? field (.object ms)).map (·, rest) := by
  cases h with
  | @one m _ h =>
    obtain ⟨after, hafter, hmember⟩ := readTagged_member h field
    simp only [hmember, closeTag_closing hafter]
    cases settingOfDatum? field (.object [m]) <;> rfl
  | @more m ms' cs tail h hrest =>
    have hnone : settingOfDatum? field (.object (m :: ms')) = none := by
      cases hrest <;> rfl
    obtain ⟨after, hafter, hmember⟩ := readTagged_member h field
    rw [List.append_assoc, List.cons_append, hmember, hnone]
    simp [closeTag_comma hafter]

/-- A setting is read from the whole of its value. -/
theorem readSetting_text (hfront : IsBlanks front) {d : Datum} {cs : List Char} (h : Text d cs)
    (field : Field) :
    (readSetting field (front ++ (cs ++ rest))).toOption =
      (settingOfDatum? field d).map (·, rest) := by
  cases d with
  | string word =>
    cases h with
    | string h =>
      rw [readSetting, List.cons_append, skipBlanks_append_cons hfront (by decide),
        List.append_assoc, List.singleton_append]
      simp only [if_pos, readString_spells h, String.ofList_toList]
      change (settingOf field word rest >>= fun setting => .ok (setting, rest)).toOption = _
      rw [toOption_bind, toOption_settingOf, settingOfDatum?]
      cases field.ofWord? word <;> rfl
  | object ms =>
    have htagged : ∃ inner, cs = '\x7b' :: (inner ++ ['\x7d']) ∧
        (readTagged field (inner ++ '\x7d' :: rest)).toOption =
          (settingOfDatum? field (.object ms)).map (·, rest) := by
      cases h with
      | @emptyObject inner h =>
        refine ⟨inner, rfl, ?_⟩
        rw [readTagged, skipBlanks_append_cons h (by decide)]
        rfl
      | @object _ inner h => exact ⟨inner, rfl, readTagged_members h field⟩
    obtain ⟨inner, rfl, htagged⟩ := htagged
    rw [← htagged, readSetting, List.cons_append, skipBlanks_append_cons hfront (by decide),
      List.append_assoc, List.singleton_append]
    rfl
  | null | bool _ | number _ | array _ =>
    obtain ⟨c, tail, rfl, hc⟩ := h.head
    obtain ⟨-, hquote, hbrace⟩ := hc.inv
    have hquote : c ≠ '"' := fun hc => nomatch hquote hc
    have hbrace : c ≠ '\x7b' := fun hc => nomatch hbrace hc
    rw [readSetting, List.cons_append, skipBlanks_append_cons hfront hc.solid.1]
    simp only [if_neg hquote, if_neg hbrace]
    rfl

end Settings

section Members

/-- A member with its name and its value is taken or refused, up to blanks behind it. -/
theorem readNamed_member {name : String} {d : Datum} {body back cs rest : List Char}
    (hname : Spells name.toList body) (hback : IsBlanks back) (h : Padded d cs)
    (hends : Ends rest) :
    ∃ left, IsBlanks left ∧ ∀ rules seen,
      (readNamed rules seen (body ++ '"' :: (back ++ ':' :: (cs ++ rest)))).toOption =
        (setMember? (rules, seen) (name, d)).map fun state => (state.1, state.2, left ++ rest) := by
  cases h with
  | @mk _ before text left hbefore h hleft =>
    refine ⟨left, hleft, fun rules seen => ?_⟩
    rw [readNamed, readString_spells hname, String.ofList_toList, List.append_assoc,
      List.append_assoc]
    simp only [readMember, setMember?, skipColon_append hback]
    cases Field.ofName? name with
    | none =>
      change (skipValue _ >>= fun rest => .ok (rules, seen, rest)).toOption = _
      rw [skipValue_append hbefore h (hends.append hleft)]
      rfl
    | some field =>
      by_cases hseen : field ∈ seen
      · simp only [if_pos hseen]
        rfl
      · simp only [if_neg hseen]
        change (readSetting field _ >>= fun found =>
          .ok (rules.set found.1, field :: seen, found.2)).toOption = _
        rw [toOption_bind, readSetting_text hbefore h]
        cases settingOfDatum? field d <;> rfl

theorem readMembers_of_name {isFirst : Bool} {cs rest : List Char}
    (h : toName isFirst cs = .ok (true, rest)) (rules : Rules) (seen : List Field) :
    readMembers rules seen isFirst cs = (readNamed rules seen rest).bind fun state =>
      readMembers state.1 state.2.1 false state.2.2 := by
  rw [readMembers]
  split
  · next hname => rw [h] at hname; cases hname
  · next hname => rw [h] at hname; cases hname
  · next hname =>
    rw [h] at hname
    cases hname
    split <;> next hmember => rw [hmember]; rfl

theorem readMembers_of_end {isFirst : Bool} {cs rest : List Char}
    (h : toName isFirst cs = .ok (false, rest)) (rules : Rules) (seen : List Field) :
    readMembers rules seen isFirst cs = .ok (rules, rest) := by
  rw [readMembers]
  split <;> next hname => rw [h] at hname; cases hname; try rfl

theorem toName_closing {left : List Char} (h : IsBlanks left) (isFirst : Bool) (rest : List Char) :
    toName isFirst (left ++ '\x7d' :: rest) = .ok (false, rest) := by
  rw [toName, skipBlanks_append_cons h (by decide)]
  rfl

theorem toName_first {front : List Char} (h : IsBlanks front) (tail : List Char) :
    toName true (front ++ '"' :: tail) = .ok (true, tail) := by
  rw [toName, skipBlanks_append_cons h (by decide)]
  rfl

theorem toName_comma {left front : List Char} (hleft : IsBlanks left) (hfront : IsBlanks front)
    (tail : List Char) : toName false (left ++ ',' :: (front ++ '"' :: tail)) = .ok (true, tail) := by
  rw [toName, skipBlanks_append_cons hleft (by decide)]
  simp only [skipBlanks_append_cons hfront (show isBlank '"' = false by decide)]
  rfl

/-- One member is read. What leads to it may be the start of the object or a comma. -/
theorem readMembers_member {m : String × Datum} {cs rest start : List Char} (h : Member m cs)
    (hends : Ends rest) {isFirst : Bool} (hstart : toName isFirst start = toName true (cs ++ rest)) :
    ∃ left, IsBlanks left ∧ ∀ rules seen, (readMembers rules seen isFirst start).toOption =
      (setMember? (rules, seen) m).bind fun state =>
        (readMembers state.1 state.2 false (left ++ rest)).toOption := by
  cases h with
  | mk hfront hname hback h =>
    obtain ⟨left, hleft, hnamed⟩ := readNamed_member hname hback h hends
    refine ⟨left, hleft, fun rules seen => ?_⟩
    simp only [List.append_assoc, List.cons_append] at hstart
    rw [readMembers_of_name (hstart.trans (toName_first hfront _))]
    refine (toOption_bind _ _).trans ?_
    rw [hnamed, Option.bind_map]
    rfl

/-- Members are read one after another, each with its effect on the rules. -/
theorem readMembers_members (rest : List Char) : ∀ {ms : List (String × Datum)} {cs : List Char},
    Members ms cs → ∀ (rules : Rules) (seen : List Field) (isFirst : Bool) (start : List Char),
      toName isFirst start = toName true (cs ++ '\x7d' :: rest) →
      (readMembers rules seen isFirst start).toOption =
        (ms.foldlM setMember? (rules, seen)).map fun state => (state.1, rest)
  | _, _, .one (m := m) h, rules, seen, isFirst, start, hstart => by
    obtain ⟨left, hleft, hmember⟩ := readMembers_member h (Ends.cons (by decide) _) hstart
    rw [hmember, List.foldlM_cons]
    cases setMember? (rules, seen) m with
    | none => rfl
    | some state =>
      rw [Option.bind_some, readMembers_of_end (toName_closing hleft false rest)]
      rfl
  | _, _, .more (m := m) h hrest, rules, seen, isFirst, start, hstart => by
    rw [List.append_assoc, List.cons_append] at hstart
    obtain ⟨left, hleft, hmember⟩ := readMembers_member h (Ends.cons (by decide) _) hstart
    rw [hmember, List.foldlM_cons]
    cases setMember? (rules, seen) m with
    | none => rfl
    | some state =>
      rw [Option.bind_some]
      -- behind a comma the next name is reached as the first one is behind the bracket
      refine readMembers_members rest hrest state.1 state.2 false _ ?_
      obtain ⟨front, tail, rfl, hfront⟩ := hrest.head
      rw [List.append_assoc, List.cons_append, toName_comma hleft hfront, toName_first hfront]

end Members

/-- The rules, if nothing but blanks follows. -/
def atEnd (state : Rules × List Char) : Except Stop Rules :=
  match skipBlanks state.2 with
  | [] => .ok state.1
  | rest => .error (.about .trailingText rest)

theorem ofText_eq (cs : List Char) : ofText cs = readRules cs >>= atEnd := rfl

/-- The text of an object is read for what its members come to. -/
theorem ofText_object {members : List (String × Datum)} {cs : List Char}
    (h : Padded (.object members) cs) : (ofText cs).toOption = ofMembers? members := by
  cases h with
  | @mk _ front text back hfront h hback =>
    have hinner : ∃ inner, text = '\x7b' :: (inner ++ ['\x7d']) ∧
        (readMembers {} [] true (inner ++ '\x7d' :: back)).toOption =
          (ofMembers? members).map (·, back) := by
      cases h with
      | @emptyObject inner h =>
        refine ⟨inner, rfl, ?_⟩
        rw [readMembers_of_end (toName_closing h true back)]
        rfl
      | @object _ inner h =>
        refine ⟨inner, rfl, ?_⟩
        rw [readMembers_members back h {} [] true _ rfl, ofMembers?, Option.map_map]
        rfl
    obtain ⟨inner, rfl, hmembers⟩ := hinner
    have hread : readRules (front ++ ('\x7b' :: (inner ++ ['\x7d']) ++ back)) =
        readMembers {} [] true (inner ++ '\x7d' :: back) := by
      rw [readRules, List.cons_append, skipBlanks_append_cons hfront (by decide),
        List.append_assoc, List.singleton_append]
      rfl
    have hblanks := skipBlanks_of_isBlanks hback
    rw [ofText_eq, hread, toOption_bind, hmembers, Option.bind_map]
    cases ofMembers? members with
    | none => rfl
    | some rules => simp [atEnd, hblanks, Except.toOption]

section Choices

theorem mem_all (field : Field) : field ∈ Field.all := by cases field <;> decide

theorem name_injective {field other : Field} (h : field.name = other.name) : field = other := by
  have hall : ∀ f ∈ Field.all, ∀ g ∈ Field.all, f.name = g.name → f = g := by decide
  exact hall field (mem_all field) other (mem_all other) h

theorem ofName?_name (field : Field) : Field.ofName? field.name = some field := by
  cases field <;> decide

theorem ofName?_eq_none {name : String} (h : ∀ field : Field, name ≠ field.name) :
    Field.ofName? name = none := by
  simp only [Field.ofName?, List.find?_eq_none, beq_iff_eq]
  exact fun field _ heq => h field heq.symm

theorem setting_mem (r : Rules) (field : Field) : r.setting field ∈ field.settings := by
  obtain ⟨keywords, newlines, anchor, unterminated⟩ := r
  cases field with
  | keywords => cases keywords <;> simp [setting, Field.settings]
  | newlines => cases newlines <;> simp [setting, Field.settings]
  | anchor => cases anchor <;> simp [setting, Field.settings]
  | unterminated => cases unterminated <;> simp [setting, Field.settings]

/-- The word for a rule's name: each capital becomes a small letter behind an underscore, and the
first underscore is left out. -/
def snakeCase (word : String) : String :=
  String.ofList ((word.toList.flatMap fun c => if c.isUpper then ['_', c.toLower] else [c]).drop 1)

theorem snakeCase_logWord (r : Rules) (field : Field) :
    snakeCase (r.setting field).logWord = (r.setting field).word := by
  have hall : ∀ f ∈ Field.all, ∀ s ∈ f.settings, snakeCase s.logWord = s.word := by decide
  exact hall field (mem_all field) _ (setting_mem r field)

theorem ofWord?_word (r : Rules) (field : Field) :
    field.ofWord? (r.setting field).word = some (r.setting field) := by
  have hall : ∀ f ∈ Field.all, ∀ s ∈ f.settings, f.ofWord? s.word = some s := by decide
  exact hall field (mem_all field) _ (setting_mem r field)

theorem setting_set (r rules : Rules) (field other : Field) :
    (rules.set (r.setting field)).setting other =
      if other = field then r.setting other else rules.setting other := by
  cases field <;> cases other <;> rfl

theorem eq_of_setting {r rules : Rules} (h : ∀ field, rules.setting field = r.setting field) :
    rules = r := by
  obtain ⟨keywords, newlines, anchor, unterminated⟩ := r
  obtain ⟨keywords', newlines', anchor', unterminated'⟩ := rules
  cases h .keywords
  cases h .newlines
  cases h .anchor
  cases h .unterminated
  rfl

end Choices

section Outcomes

theorem setMember?_other {m : String × Datum} (h : ∀ field : Field, m.1 ≠ field.name)
    (state : Rules × List Field) : setMember? state m = some state := by
  rw [setMember?, ofName?_eq_none h]

theorem setMember?_word (r : Rules) {field : Field} {seen : List Field} (h : field ∉ seen)
    (rules : Rules) :
    setMember? (rules, seen) (field.name, .string (r.setting field).word) =
      some (rules.set (r.setting field), field :: seen) := by
  simp only [setMember?, ofName?_name, if_neg h, settingOfDatum?, ofWord?_word]
  rfl

theorem setMember?_of_seen {m : String × Datum} {field : Field} (h : m.1 = field.name)
    {state : Rules × List Field} (hseen : field ∈ state.2) : setMember? state m = none := by
  simp only [setMember?, h, ofName?_name, if_pos hseen]

/-- What has been set stays set, and a name that has been passed counts as set. -/
theorem seen_of_setMember? {m : String × Datum} {state state' : Rules × List Field}
    (h : setMember? state m = some state') {field : Field}
    (hfield : field ∈ state.2 ∨ m.1 = field.name) : field ∈ state'.2 := by
  by_cases hknown : ∃ field : Field, m.1 = field.name
  · obtain ⟨known, hname⟩ := hknown
    by_cases hseen : known ∈ state.2
    · rw [setMember?_of_seen hname hseen] at h
      cases h
    · simp only [setMember?, hname, ofName?_name, if_neg hseen, Option.map_eq_some_iff] at h
      obtain ⟨setting, -, rfl⟩ := h
      rcases hfield with hfield | hfield
      · exact List.mem_cons_of_mem _ hfield
      · rw [name_injective (hfield.symm.trans hname)]
        exact List.mem_cons_self
  · have hother : ∀ field : Field, m.1 ≠ field.name := fun field hname => hknown ⟨field, hname⟩
    rw [setMember?_other hother] at h
    cases h
    exact hfield.resolve_right (hother field)

/-- Members that say once what is to be changed come to the rules they were written for. -/
theorem foldlM_of_words {r : Rules} {ms : List (String × Datum)}
    (hword : ∀ m ∈ ms, ∀ field : Field, m.1 = field.name → m.2 = .string (r.setting field).word)
    (hdistinct : ms.Pairwise fun m n => ∀ field : Field, m.1 = field.name → n.1 ≠ field.name)
    {rules : Rules} {seen : List Field} (hseen : ∀ m ∈ ms, ∀ field ∈ seen, m.1 ≠ field.name)
    (hchanged : ∀ field, rules.setting field ≠ r.setting field → ∃ m ∈ ms, m.1 = field.name) :
    ∃ seen', ms.foldlM setMember? (rules, seen) = some (r, seen') := by
  induction ms generalizing rules seen with
  | nil =>
    have heq : rules = r := eq_of_setting fun field =>
      Classical.byContradiction fun hne => by
        obtain ⟨m, hm, -⟩ := hchanged field hne
        cases hm
    exact ⟨seen, by rw [heq]; rfl⟩
  | cons m ms ih =>
    obtain ⟨hfirst, hdistinct⟩ := List.pairwise_cons.mp hdistinct
    obtain ⟨hwordm, hword⟩ := List.forall_mem_cons.mp hword
    obtain ⟨hseenm, hseen⟩ := List.forall_mem_cons.mp hseen
    by_cases hknown : ∃ field : Field, m.1 = field.name
    · obtain ⟨known, hname⟩ := hknown
      have hnew : known ∉ seen := fun hmem => hseenm known hmem hname
      have hstep : setMember? (rules, seen) m = some (rules.set (r.setting known), known :: seen) := by
        obtain ⟨name, d⟩ := m
        cases hname
        cases hwordm known rfl
        exact setMember?_word r hnew rules
      rw [List.foldlM_cons, hstep]
      refine ih hword hdistinct (fun n hn => ?_) fun field hne => ?_
      · exact List.forall_mem_cons.mpr ⟨hfirst n hn known hname, hseen n hn⟩
      · -- what the first member has set is as it should be, and what it has not set is still to come
        rw [setting_set] at hne
        split at hne
        · exact absurd rfl hne
        · next hother =>
          obtain ⟨n, hn, hnname⟩ := hchanged field hne
          rcases List.mem_cons.mp hn with rfl | hn
          · exact absurd (name_injective (hnname.symm.trans hname)) hother
          · exact ⟨n, hn, hnname⟩
    · have hother : ∀ field : Field, m.1 ≠ field.name := fun field hname => hknown ⟨field, hname⟩
      rw [List.foldlM_cons, setMember?_other hother]
      refine ih hword hdistinct hseen fun field hne => ?_
      obtain ⟨n, hn, hnname⟩ := hchanged field hne
      rcases List.mem_cons.mp hn with rfl | hn
      · exact absurd hnname (hother field)
      · exact ⟨n, hn, hnname⟩

/-- A choice that is set is not set again. -/
theorem foldlM_of_seen {field : Field} {ms : List (String × Datum)}
    (h : field.name ∈ ms.map Prod.fst) {state : Rules × List Field} (hseen : field ∈ state.2) :
    ms.foldlM setMember? state = none := by
  induction ms generalizing state with
  | nil => cases h
  | cons m ms ih =>
    rw [List.foldlM_cons]
    cases hstep : setMember? state m with
    | none => rfl
    | some state' =>
      have hseen' := seen_of_setMember? hstep (.inl hseen)
      rcases List.mem_cons.mp h with hname | hmem
      · rw [setMember?_of_seen hname.symm hseen] at hstep
        cases hstep
      · exact ih hmem hseen'

theorem foldlM_of_duplicate {field : Field} {ms : List (String × Datum)}
    (h : 2 ≤ (ms.map Prod.fst).count field.name) (state : Rules × List Field) :
    ms.foldlM setMember? state = none := by
  induction ms generalizing state with
  | nil => cases h
  | cons m ms ih =>
    rw [List.foldlM_cons]
    cases hstep : setMember? state m with
    | none => rfl
    | some state' =>
      rw [List.map_cons, List.count_cons] at h
      split at h
      · next hname =>
        have hseen := seen_of_setMember? hstep (.inr (eq_of_beq hname))
        exact foldlM_of_seen (List.count_pos_iff.mp (by omega)) hseen
      · exact ih h state'

end Outcomes

section Whole

/-- Members that set choices to the rules taken for them, each by the word for the rule's name. -/
def wordMembers (r : Rules) (fields : List Field) : List (String × Datum) :=
  fields.map fun field => (field.name, .string (snakeCase (r.setting field).logWord))

theorem exists_of_mem_wordMembers {r : Rules} {fields : List Field} {m : String × Datum}
    (h : m ∈ wordMembers r fields) :
    ∃ field ∈ fields, m = (field.name, .string (r.setting field).word) := by
  obtain ⟨field, hfield, rfl⟩ := List.mem_map.mp h
  exact ⟨field, hfield, by rw [snakeCase_logWord]⟩

/-- No two of these members set the same choice. -/
theorem pairwise_wordMembers (r : Rules) {fields : List Field} (hfields : fields.Nodup)
    {others : List (String × Datum)} (hothers : ∀ m ∈ others, ∀ field : Field, m.1 ≠ field.name) :
    (wordMembers r fields ++ others).Pairwise fun m n =>
      ∀ field : Field, m.1 = field.name → n.1 ≠ field.name := by
  refine List.pairwise_append.mpr ⟨?_, ?_, fun m _ n hn field _ => hothers n hn field⟩
  · refine List.pairwise_map.mpr (hfields.imp fun hne field hfirst hsecond => hne ?_)
    exact name_injective (hfirst.trans hsecond.symm)
  · exact List.Pairwise.imp_of_mem (fun hm _ _ field hname => absurd hname (hothers _ hm field))
      (List.pairwise_of_forall fun _ _ => True.intro)

theorem ofMembers?_of_perm {r : Rules} {fields : List Field} {others members : List (String × Datum)}
    (hfields : fields.Nodup)
    (hchanged : ∀ field, r.setting field ≠ ({} : Rules).setting field → field ∈ fields)
    (hothers : ∀ m ∈ others, ∀ field : Field, m.1 ≠ field.name)
    (hperm : members.Perm (wordMembers r fields ++ others)) : ofMembers? members = some r := by
  have hword : ∀ m ∈ members, ∀ field : Field, m.1 = field.name →
      m.2 = .string (r.setting field).word := by
    intro m hm field hname
    rcases List.mem_append.mp (hperm.mem_iff.mp hm) with hm | hm
    · obtain ⟨known, -, rfl⟩ := exists_of_mem_wordMembers hm
      rw [name_injective hname]
    · exact absurd hname (hothers m hm field)
  have hdistinct : members.Pairwise fun m n =>
      ∀ field : Field, m.1 = field.name → n.1 ≠ field.name :=
    (hperm.pairwise_iff fun h field hfirst hsecond => h field hsecond hfirst).mpr
      (pairwise_wordMembers r hfields hothers)
  have hnamed : ∀ field, ({} : Rules).setting field ≠ r.setting field →
      ∃ m ∈ members, m.1 = field.name := by
    intro field hne
    have hmem := List.mem_map_of_mem (f := fun field =>
      (field.name, Datum.string (snakeCase (r.setting field).logWord))) (hchanged field hne.symm)
    exact ⟨_, hperm.mem_iff.mpr (List.mem_append_left others hmem), rfl⟩
  obtain ⟨seen, hfold⟩ : ∃ seen, members.foldlM setMember? ({}, []) = some (r, seen) :=
    foldlM_of_words hword hdistinct (fun _ _ _ hseen => nomatch hseen) hnamed
  rw [ofMembers?, hfold]
  rfl

theorem toOption_ofJson {members : List (String × Datum)} {text : String}
    (h : IsText (.object members) text) : (ofJson text).toOption = ofMembers? members := by
  rw [← ofText_object h, ofJson]
  cases ofText text.toList <;> rfl

/-- Rules are read by name, with defaults, whatever else an object has. Members that write some of
the choices, at least those that differ from the default, each by the word for its rule, come to
the rules they are taken from, in any order and among any other members with any values. An object
that names a choice twice is refused. -/
theorem ofJson_by_name {members : List (String × Datum)} {text : String}
    (htext : IsText (.object members) text) :
    (∀ (r : Rules) (fields : List Field) (others : List (String × Datum)), fields.Nodup →
      (∀ field, r.setting field ≠ ({} : Rules).setting field → field ∈ fields) →
      (∀ m ∈ others, ∀ field : Field, m.1 ≠ field.name) →
      members.Perm (wordMembers r fields ++ others) → ofJson text = .ok r) ∧
    ((∃ field : Field, 2 ≤ (members.map Prod.fst).count field.name) →
      ∃ refusal, ofJson text = .error refusal) := by
  have hread := toOption_ofJson htext
  constructor
  · intro r fields others hfields hchanged hothers hperm
    rw [ofMembers?_of_perm hfields hchanged hothers hperm] at hread
    cases hresult : ofJson text with
    | ok rules =>
      rw [hresult] at hread
      exact congrArg _ (Option.some.inj hread)
    | error refusal =>
      rw [hresult] at hread
      cases hread
  · intro hduplicate
    obtain ⟨field, hcount⟩ := hduplicate
    rw [ofMembers?, foldlM_of_duplicate hcount] at hread
    cases hresult : ofJson text with
    | ok rules =>
      rw [hresult] at hread
      cases hread
    | error refusal => exact ⟨refusal, rfl⟩

/-- A name further inside is no choice, and a choice is refused the second time even with the same
word. -/
theorem ofJson_by_name_nested :
    ofJson "\x7b\"limits\":[1,\x7b\"keywords\":\"\x7d\"\x7d],\"keywords\":\"prefix\"\x7d" =
        .ok { keywords := .leading } ∧
      ∃ refusal, ofJson "\x7b\"anchor\":\"end\",\"anchor\":\"end\"\x7d" = .error refusal := by
  constructor
  · have htext := Json.isText_compact (.object
      [("limits", .array [.number 1, .object [("keywords", .string "\x7d")]]),
        ("keywords", .string "prefix")])
    refine (ofJson_by_name htext).1 { keywords := .leading } [.keywords]
      [("limits", .array [.number ['1'], .object [("keywords", .string "\x7d")]])] (by decide)
      ?_ ?_ (.swap ..)
    · intro field
      cases field <;> decide
    · intro m hm field
      cases List.mem_singleton.mp hm
      cases field <;> decide
  · have htext := Json.isText_compact
      (.object [("anchor", .string "end"), ("anchor", .string "end")])
    exact (ofJson_by_name htext).2 ⟨.anchor, by decide⟩

end Whole

end PhpTokens.Rules
