import Mathlib.Data.List.Forall2
import PhpTokens.Json
import PhpTokens.Proofs.JsonText.Grammar
import PhpTokens.Proofs.Text.Runs

/-! The texts that JSON values are written as. On one line or over several, they are JSON texts of
these values. -/

namespace PhpTokens

open JsonText

mutual

/-- The value that a JSON text has when this value is written. -/
def Json.datum : Json → Datum
  | .number n => .number (toString n).toList
  | .string s => .string s
  | .array items => .array (Json.itemData items)
  | .object members => .object (Json.memberData members)

def Json.itemData : List Json → List Datum
  | [] => []
  | v :: vs => v.datum :: Json.itemData vs

def Json.memberData : List (String × Json) → List (String × Datum)
  | [] => []
  | (name, v) :: ms => (name, v.datum) :: Json.memberData ms

end

namespace JsonText

section Scalars

theorem short_of_letter? {c l : Char} (h : Json.letter? c = some l) : (c, l) ∈ shortEscapes := by
  have hall : ∀ entry ∈ [('\x08', 'b'), ('\x0c', 'f'), ('\n', 'n'), ('\r', 'r'), ('\t', 't')],
      entry ∈ shortEscapes := by decide
  apply hall
  unfold Json.letter? at h
  grind

/-- What a character is escaped as spells it. -/
theorem spellsChar_escapeChar (c : Char) : SpellsChar c (Json.escapeChar c) := by
  unfold Json.escapeChar
  split
  · next hletter => exact .escape (.short (short_of_letter? hletter))
  · split
    · next hmark => rcases hmark with rfl | rfl <;> exact .escape (.short (by decide))
    · next hmark =>
      obtain ⟨hquote, hbackslash⟩ := not_or.mp hmark
      split
      · next hcontrol =>
        have hlt : c.toNat / 16 < 16 := by omega
        have hunit := CodeUnit.digits ⟨(by decide : 0 < 16), .inl rfl⟩
          ⟨(by decide : 0 < 16), .inl rfl⟩ ⟨hlt, .inl rfl⟩
          ⟨Nat.mod_lt c.toNat (by decide : 0 < 16), .inl rfl⟩
        rw [show ((0 * 16 + 0) * 16 + c.toNat / 16) * 16 + c.toNat % 16 = c.toNat by omega] at hunit
        exact .escape (.unit hunit)
      · next hcontrol => exact .plain (Nat.not_lt.mp hcontrol) hquote hbackslash

theorem spells_escapeChar (cs : List Char) : Spells cs (cs.flatMap Json.escapeChar) := by
  induction cs with
  | nil => exact .nil
  | cons c cs ih => exact .cons (spellsChar_escapeChar c) ih

theorem toList_quote (s : String) :
    (Json.quote s).toList = '"' :: (s.toList.flatMap Json.escapeChar ++ ['"']) :=
  String.toList_ofList

/-- The decimal digits of a number above zero do not begin with a zero. -/
theorem exists_toDigits {n : Nat} (h : n ≠ 0) :
    ∃ c cs, Nat.toDigits 10 n = c :: cs ∧ c ≠ '0' := by
  induction n using Nat.strongRecOn with
  | ind n ih =>
    rw [Nat.toDigits_eq_if (by decide)]
    split
    · next hlt =>
      have hall : ∀ n < 10, n ≠ 0 → n.digitChar ≠ '0' := by decide
      exact ⟨_, _, rfl, hall n hlt h⟩
    · next hle =>
      obtain ⟨c, cs, hcs, hc⟩ := ih (n / 10) (by omega) (by omega)
      exact ⟨c, cs ++ [(n % 10).digitChar], by rw [hcs]; rfl, hc⟩

theorem isInteger_decimal (n : Nat) : IsInteger (toString n).toList := by
  have hdigits : ∀ c ∈ (toString n).toList, c.isDigit = true := fun _ => isDigit_of_mem_decimal
  by_cases h : n = 0
  · subst h
    exact .zero
  · obtain ⟨c, cs, hcs, hc⟩ := exists_toDigits h
    rw [Nat.toString_eq_ofList_toDigits, String.toList_ofList, hcs] at hdigits ⊢
    exact .other (hdigits c List.mem_cons_self) hc fun d hd => hdigits d (List.mem_cons_of_mem _ hd)

theorem text_number (n : Nat) : Text (.number (toString n).toList) (toString n).toList := by
  have h := IsNumeral.mk List.mem_cons_self (isInteger_decimal n) .none .none
  rw [List.nil_append, List.append_nil, List.append_nil] at h
  exact .number h

end Scalars

section Joining

/-- Parts with commas and blanks between them are items or members, whichever they are parts of. -/
theorem many_of_parts {α : Type} {One : α → List Char → Prop} {Many : List α → List Char → Prop}
    (one : ∀ {a cs}, One a cs → Many [a] cs)
    (more : ∀ {a as cs rest}, One a cs → Many as rest → Many (a :: as) (cs ++ ',' :: rest))
    {gap back : List Char} (hgap : IsBlanks gap) (hback : IsBlanks back)
    {as : List α} {parts : List (List Char)}
    (h : List.Forall₂ (fun a part => ∀ {front back}, IsBlanks front → IsBlanks back →
      One a (front ++ (part ++ back))) as parts) (hne : as ≠ [])
    {front : List Char} (hfront : IsBlanks front) :
    Many as (front ++ ((',' :: gap).intercalate parts ++ back)) := by
  induction h generalizing front with
  | nil => exact absurd rfl hne
  | @cons a part as parts ha htail ih =>
    -- only the last part has no comma behind it
    cases htail with
    | nil =>
      rw [List.intercalate_singleton]
      exact one (ha hfront hback)
    | cons hb htail =>
      have hrest := ih (List.cons_ne_nil _ _) hgap
      rw [List.intercalate_cons_cons]
      have hpart := more (ha hfront (List.forall_mem_nil _)) hrest
      rw [List.append_nil] at hpart
      simpa only [List.append_assoc, List.cons_append] using hpart

/-- The text of a member from its name on. -/
def MemberPart (m : String × Datum) (part : List Char) : Prop :=
  ∃ body gap cs, Spells m.1.toList body ∧ IsBlanks gap ∧ Text m.2 cs ∧
    part = '"' :: (body ++ '"' :: ':' :: (gap ++ cs))

theorem MemberPart.member {m : String × Datum} {part front back : List Char}
    (h : MemberPart m part) (hfront : IsBlanks front) (hback : IsBlanks back) :
    Member m (front ++ (part ++ back)) := by
  obtain ⟨body, gap, cs, hname, hgap, hvalue, rfl⟩ := h
  have hmember := Member.mk hfront hname (List.forall_mem_nil _) (.mk hgap hvalue hback)
  simpa only [List.cons_append, List.append_assoc, List.nil_append] using hmember

variable {front gap back : List Char} (hfront : IsBlanks front) (hgap : IsBlanks gap)
  (hback : IsBlanks back) {parts : List (List Char)}
include hfront hgap hback

theorem text_array {ds : List Datum} (h : List.Forall₂ Text ds parts) :
    Text (.array ds) ('[' :: (front ++ ((',' :: gap).intercalate parts ++ back) ++ [']'])) := by
  have hparts : List.Forall₂ (fun d part => ∀ {front back}, IsBlanks front → IsBlanks back →
      Padded d (front ++ (part ++ back))) ds parts :=
    h.imp fun _ _ hd _ _ hfront hback => .mk hfront hd hback
  cases h with
  | nil => exact .emptyArray (List.forall_mem_append.mpr ⟨hfront, hback⟩)
  | cons _ _ =>
    exact .array (many_of_parts .one .more hgap hback hparts (List.cons_ne_nil _ _) hfront)

theorem text_object {ms : List (String × Datum)} (h : List.Forall₂ MemberPart ms parts) :
    Text (.object ms)
      ('\x7b' :: (front ++ ((',' :: gap).intercalate parts ++ back) ++ ['\x7d'])) := by
  have hparts : List.Forall₂ (fun m part => ∀ {front back}, IsBlanks front → IsBlanks back →
      Member m (front ++ (part ++ back))) ms parts := h.imp fun _ _ hm _ _ => hm.member
  cases h with
  | nil => exact .emptyObject (List.forall_mem_append.mpr ⟨hfront, hback⟩)
  | cons _ _ =>
    exact .object (many_of_parts .one .more hgap hback hparts (List.cons_ne_nil _ _) hfront)

end Joining

end JsonText

namespace Json

theorem memberPart (name : String) {d : Datum} {gap cs : List Char} (hgap : IsBlanks gap)
    (h : Text d cs) {colon : String} (hcolon : colon.toList = ':' :: gap) {value : String}
    (hvalue : value.toList = cs) : MemberPart (name, d) (quote name ++ colon ++ value).toList := by
  refine ⟨_, gap, cs, spells_escapeChar _, hgap, h, ?_⟩
  simp only [String.toList_append, toList_quote, hcolon, hvalue, List.cons_append, List.append_assoc,
    List.nil_append]

section Compact

theorem isBlanks_nil : IsBlanks [] := List.forall_mem_nil _

mutual

/-- A value on one line is a JSON text of it. -/
theorem text_compact : ∀ v : Json, Text v.datum v.compact.toList
  | .number n => text_number n
  | .string s => by
    rw [compact, toList_quote]
    exact .string (spells_escapeChar _)
  | .array items => by
    have h := text_array isBlanks_nil isBlanks_nil isBlanks_nil (text_compactItems items)
    simpa [compact, datum, String.toList_intercalate] using h
  | .object members => by
    have h := text_object isBlanks_nil isBlanks_nil isBlanks_nil (text_compactMembers members)
    simpa [compact, datum, String.toList_intercalate] using h

theorem text_compactItems : ∀ vs : List Json,
    List.Forall₂ Text (itemData vs) ((compactItems vs).map String.toList)
  | [] => .nil
  | v :: vs => .cons (text_compact v) (text_compactItems vs)

theorem text_compactMembers : ∀ ms : List (String × Json),
    List.Forall₂ MemberPart (memberData ms) ((compactMembers ms).map String.toList)
  | [] => .nil
  | (name, v) :: ms => .cons (memberPart name isBlanks_nil (text_compact v) rfl rfl)
    (text_compactMembers ms)

end

end Compact

section Pretty

theorem isBlanks_newline (level : Nat) : IsBlanks (newline level).toList := by
  rw [newline, String.toList_ofList]
  refine List.forall_mem_cons.mpr ⟨by decide, fun c hc => ?_⟩
  rw [(List.mem_replicate.mp hc).2]
  decide

/-- A block is blanks and parts between its brackets, with a comma between any two parts. -/
theorem exists_block (level : Nat) (parts : List String) :
    ∃ front gap back, IsBlanks front ∧ IsBlanks gap ∧ IsBlanks back ∧
      ∀ opening closing : String, (block level opening closing parts).toList =
        opening.toList ++ (front ++ ((',' :: gap).intercalate (parts.map String.toList) ++ back) ++
          closing.toList) := by
  cases parts with
  | nil =>
    refine ⟨[], [], [], isBlanks_nil, isBlanks_nil, isBlanks_nil, fun opening closing => ?_⟩
    simp [block]
  | cons part parts =>
    refine ⟨_, _, _, isBlanks_newline (level + 1), isBlanks_newline (level + 1),
      isBlanks_newline level, fun opening closing => ?_⟩
    have hcomma : ("," ++ newline (level + 1)).toList = ',' :: (newline (level + 1)).toList :=
      String.toList_append
    simp only [block, List.isEmpty_cons, Bool.false_eq_true, if_false, String.toList_append,
      String.toList_intercalate, hcomma, List.append_assoc]

mutual

/-- A value over several lines is a JSON text of it, at any level. -/
theorem text_pretty (level : Nat) : ∀ v : Json, Text v.datum (v.pretty level).toList
  | .number n => text_number n
  | .string s => by
    rw [pretty, toList_quote]
    exact .string (spells_escapeChar _)
  | .array items => by
    obtain ⟨front, gap, back, hfront, hgap, hback, hblock⟩ :=
      exists_block level (prettyItems (level + 1) items)
    rw [pretty, hblock]
    exact text_array hfront hgap hback (text_prettyItems (level + 1) items)
  | .object members => by
    obtain ⟨front, gap, back, hfront, hgap, hback, hblock⟩ :=
      exists_block level (prettyMembers (level + 1) members)
    rw [pretty, hblock]
    exact text_object hfront hgap hback (text_prettyMembers (level + 1) members)

theorem text_prettyItems (level : Nat) : ∀ vs : List Json,
    List.Forall₂ Text (itemData vs) ((prettyItems level vs).map String.toList)
  | [] => .nil
  | v :: vs => .cons (text_pretty level v) (text_prettyItems level vs)

theorem text_prettyMembers (level : Nat) : ∀ ms : List (String × Json),
    List.Forall₂ MemberPart (memberData ms) ((prettyMembers level ms).map String.toList)
  | [] => .nil
  | (name, v) :: ms => .cons
    (memberPart name (List.forall_mem_singleton.mpr (by decide)) (text_pretty level v) rfl rfl)
    (text_prettyMembers level ms)

end

end Pretty

theorem isText_compact (v : Json) : IsText v.datum v.compact := by
  have h := Padded.mk isBlanks_nil (text_compact v) isBlanks_nil
  rwa [List.nil_append, List.append_nil] at h

/-- A value over several lines, with blanks behind it. -/
theorem isText_pretty (level : Nat) (v : Json) (back : String) (hback : IsBlanks back.toList) :
    IsText v.datum (v.pretty level ++ back) := by
  have h := Padded.mk isBlanks_nil (text_pretty level v) hback
  rwa [List.nil_append, ← String.toList_append] at h

end Json
end PhpTokens
