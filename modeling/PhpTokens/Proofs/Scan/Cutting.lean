import PhpTokens.Scan.Scanner
import PhpTokens.Proofs.Scan.Lexeme
import PhpTokens.Proofs.Text.LineColumn

/-! A run of the scanner over a text as a division of the text. Which pieces are cut, and where,
depends on the characters alone; the places that tokens and errors report are then read off the
indices of the cuts. Every run of the scanner is such a division, and a text has only one. -/

namespace PhpTokens

/-- The line and column at an index, for a piece of the length given. -/
def NewlineRule.place (rule : NewlineRule) (text : List Char) (k length : Nat) : Place :=
  ⟨rule.line text k, rule.column text k, length⟩

/-- A piece and the index where it begins. -/
structure Cut where
  start : Nat
  piece : Lexeme

/-- The index behind the piece. -/
def Cut.stop (c : Cut) : Nat := c.start + c.piece.length

/-- The characters of a cut. -/
def Cut.chars (text : List Char) (c : Cut) : List Char := (text.drop c.start).take c.piece.length

def Cut.token (rules : Rules) (text : List Char) (c : Cut) : Token :=
  { kind := c.piece.kind
    text := String.ofList ((text.drop c.start).take c.piece.length)
    place := match rules.anchor with
      | .start => rules.newlines.place text c.start c.piece.length
      | .finish => rules.newlines.place text c.stop c.piece.length
    extent := ⟨Utf8.size (text.take c.start), Utf8.size (text.take c.stop)⟩ }

/-- The token for the end of a text. -/
def endOf (rules : Rules) (text : List Char) : Token :=
  { kind := .endOfInput
    text := ""
    place := rules.newlines.place text text.length 1
    extent := ⟨Utf8.size text, Utf8.size text⟩ }

/-- How a division ends: at the end of the text, or before a piece at fault. -/
inductive Ending where
  | complete
  | broken (start : Nat) (fault : Fault)

/-- The index that a division leads to. -/
def Ending.index (text : List Char) : Ending → Nat
  | .complete => text.length
  | .broken start _ => start

def Ending.outcome (rules : Rules) (text : List Char) : Ending → Except ScanError Token
  | .complete => .ok (endOf rules text)
  | .broken start fault =>
    .error ⟨fault, rules.newlines.line text start, rules.newlines.column text start⟩

/-- All characters from `n` up to `s` are blank. -/
structure Blanks (text : List Char) (n s : Nat) : Prop where
  le : n ≤ s
  stop_le : s ≤ text.length
  blank : ∀ c ∈ (text.drop n).take (s - n), CharClass.isBlank c = true

theorem Blanks.refl {text : List Char} {n : Nat} (h : n ≤ text.length) : Blanks text n n :=
  ⟨Nat.le_refl n, h, by simp⟩

/-- The character `c` at `s` is the first from `n` on that is not blank. -/
structure Lead (text : List Char) (n s : Nat) (c : Char) : Prop where
  blanks : Blanks text n s
  here : text[s]? = some c
  solid : CharClass.isBlank c = false

/-- The division of a text from the index `n` on. -/
inductive Cutting (rules : Rules) (text : List Char) : Nat → List Cut → Ending → Prop where
  | complete {n : Nat} : Blanks text n text.length → Cutting rules text n [] .complete
  | broken {n s : Nat} {c : Char} {fault : Fault} : Lead text n s c →
      Lexeme.read rules c (text.drop (s + 1)) = .error fault →
      Cutting rules text n [] (.broken s fault)
  | cut {n s : Nat} {c : Char} {piece : Lexeme} {cuts : List Cut} {ending : Ending} :
      Lead text n s c → Lexeme.read rules c (text.drop (s + 1)) = .ok piece →
      Cutting rules text (s + piece.length) cuts ending →
      Cutting rules text n (⟨s, piece⟩ :: cuts) ending

theorem Lead.lt {text : List Char} {n s : Nat} {c : Char} (h : Lead text n s c) :
    s < text.length :=
  (List.getElem?_eq_some_iff.mp h.here).1

theorem Lead.drop_eq {text : List Char} {n s : Nat} {c : Char} (h : Lead text n s c) :
    text.drop s = c :: text.drop (s + 1) := by
  obtain ⟨hlt, hc⟩ := List.getElem?_eq_some_iff.mp h.here
  rw [List.drop_eq_getElem_cons hlt, hc]

/-- Behind blanks, the next character that is none leads. -/
theorem lead_of_drop_eq {text gap rest : List Char} {n : Nat} {c : Char}
    (hn : n ≤ text.length) (hdrop : text.drop n = gap ++ c :: rest)
    (hgap : ∀ b ∈ gap, CharClass.isBlank b = true) (hsolid : CharClass.isBlank c = false) :
    Lead text n (n + gap.length) c := by
  have hlength := congrArg List.length hdrop
  rw [List.length_drop, List.length_append, List.length_cons] at hlength
  refine ⟨⟨Nat.le_add_right _ _, by omega, ?_⟩, ?_, hsolid⟩
  · rwa [Nat.add_sub_cancel_left, hdrop, List.take_left]
  · rw [← List.getElem?_drop, hdrop, List.getElem?_append_right (Nat.le_refl _), Nat.sub_self]
    rfl

/-- A piece ends inside the text. -/
theorem Lead.stop_le {text : List Char} {n s : Nat} {c : Char} (h : Lead text n s c)
    {rules : Rules} {piece : Lexeme} (hread : Lexeme.read rules c (text.drop (s + 1)) = .ok piece) :
    s + piece.length ≤ text.length := by
  have hlt := h.lt
  have hle := Lexeme.read_le hread
  rw [List.length_drop] at hle
  omega

/-- Blanks end at the latest before the first character that is not blank. -/
theorem Blanks.le_lead {text : List Char} {n s t : Nat} (h : Blanks text n t)
    {c : Char} (hlead : Lead text n s c) : t ≤ s := by
  apply Nat.le_of_not_lt
  intro hlt
  have hmem : c ∈ (text.drop n).take (t - n) := by
    have hle := hlead.blanks.le
    apply List.mem_of_getElem? (i := s - n)
    rw [List.getElem?_take_of_lt (by omega), List.getElem?_drop, Nat.add_sub_cancel' hle]
    exact hlead.here
  exact absurd (h.blank c hmem) (by simp [hlead.solid])

theorem Lead.unique {text : List Char} {n s t : Nat} {c d : Char} (h : Lead text n s c)
    (h' : Lead text n t d) : s = t ∧ c = d := by
  have hst : s = t := Nat.le_antisymm (h.blanks.le_lead h') (h'.blanks.le_lead h)
  subst hst
  exact ⟨rfl, Option.some.inj (h.here.symm.trans h'.here)⟩

/-- A text is divided in one way only. -/
theorem Cutting.unique {rules : Rules} {text : List Char} {n : Nat} {cuts cuts' : List Cut}
    {ending ending' : Ending} (h : Cutting rules text n cuts ending)
    (h' : Cutting rules text n cuts' ending') : cuts = cuts' ∧ ending = ending' := by
  induction h generalizing cuts' ending' with
  | complete hblank =>
    cases h' with
    | complete _ => exact ⟨rfl, rfl⟩
    | broken hlead _ | cut hlead _ _ =>
      exact absurd hlead.lt (Nat.not_lt.mpr (hblank.le_lead hlead))
  | broken hlead hread =>
    cases h' with
    | complete hblank => exact absurd hlead.lt (Nat.not_lt.mpr (hblank.le_lead hlead))
    | broken hlead' hread' =>
      obtain ⟨rfl, rfl⟩ := hlead.unique hlead'
      cases hread.symm.trans hread'
      exact ⟨rfl, rfl⟩
    | cut hlead' hread' _ =>
      obtain ⟨rfl, rfl⟩ := hlead.unique hlead'
      cases hread.symm.trans hread'
  | cut hlead hread _ ih =>
    cases h' with
    | complete hblank => exact absurd hlead.lt (Nat.not_lt.mpr (hblank.le_lead hlead))
    | broken hlead' hread' =>
      obtain ⟨rfl, rfl⟩ := hlead.unique hlead'
      cases hread.symm.trans hread'
    | cut hlead' hread' hrest =>
      obtain ⟨rfl, rfl⟩ := hlead.unique hlead'
      cases hread.symm.trans hread'
      obtain ⟨rfl, rfl⟩ := ih hrest
      exact ⟨rfl, rfl⟩

/-- The first index from `n` on where no blank stands. -/
def solidFrom (text : List Char) (n : Nat) : Nat :=
  n + ((text.drop n).takeWhile CharClass.isBlank).length

theorem drop_solidFrom (text : List Char) (n : Nat) :
    text.drop (solidFrom text n) = (text.drop n).dropWhile CharClass.isBlank := by
  rw [solidFrom, ← List.drop_drop, drop_length_takeWhile]

theorem blanks_solidFrom {text : List Char} {n : Nat} (h : n ≤ text.length) :
    Blanks text n (solidFrom text n) := by
  have hprefix := List.takeWhile_prefix (l := text.drop n) CharClass.isBlank
  have hle := hprefix.length_le
  rw [List.length_drop] at hle
  refine ⟨Nat.le_add_right _ _, by rw [solidFrom]; omega, ?_⟩
  rw [solidFrom, Nat.add_sub_cancel_left, ← List.prefix_iff_eq_take.mp hprefix]
  exact fun c hc => List.mem_takeWhile_imp hc

theorem lead_solidFrom {text : List Char} {n : Nat} (h : n ≤ text.length) {c : Char}
    {rest : List Char} (hdrop : text.drop (solidFrom text n) = c :: rest) :
    Lead text n (solidFrom text n) c := by
  refine ⟨blanks_solidFrom h, ?_, ?_⟩
  · rw [← List.head?_drop, hdrop]
    rfl
  · have hhead := List.head?_dropWhile_not CharClass.isBlank (text.drop n)
    rw [← drop_solidFrom, hdrop] at hhead
    simpa using hhead

theorem solidFrom_eq_length {text : List Char} {n : Nat} (h : n ≤ text.length)
    (hdrop : text.drop (solidFrom text n) = []) : solidFrom text n = text.length :=
  Nat.le_antisymm (blanks_solidFrom h).stop_le (List.drop_eq_nil_iff.mp hdrop)

theorem Lead.solidFrom_eq {text : List Char} {n s : Nat} {c : Char} (h : Lead text n s c) :
    solidFrom text n = s := by
  have hn : n ≤ text.length := Nat.le_trans h.blanks.le h.blanks.stop_le
  apply Nat.le_antisymm ((blanks_solidFrom hn).le_lead h)
  cases hdrop : text.drop (solidFrom text n) with
  | nil => exact h.blanks.stop_le.trans_eq (solidFrom_eq_length hn hdrop).symm
  | cons d rest => exact h.blanks.le_lead (lead_solidFrom hn hdrop)

theorem Blanks.solidFrom_eq {text : List Char} {n : Nat} (h : Blanks text n text.length) :
    solidFrom text n = text.length := by
  cases hdrop : text.drop (solidFrom text n) with
  | nil => exact solidFrom_eq_length h.le hdrop
  | cons d rest =>
    have hlead := lead_solidFrom h.le hdrop
    exact absurd hlead.lt (Nat.not_lt.mpr (h.le_lead hlead))

theorem Cutting.start_le {rules : Rules} {text : List Char} {n : Nat} {cuts : List Cut}
    {ending : Ending} (h : Cutting rules text n cuts ending) : n ≤ text.length := by
  cases h with
  | complete hblank => exact hblank.le
  | broken hlead _ | cut hlead _ _ => exact Nat.le_trans hlead.blanks.le hlead.blanks.stop_le

/-- A division that is broken stops at the character that its fault is about. -/
theorem Cutting.mark {rules : Rules} {text : List Char} {n start : Nat} {cuts : List Cut}
    {ending : Ending} {fault : Fault} (h : Cutting rules text n cuts ending)
    (hbroken : ending = .broken start fault) :
    text[start]? = some fault.mark ∧ CharClass.isBlank fault.mark = false := by
  induction h with
  | complete _ => cases hbroken
  | broken hlead hread =>
    cases hbroken
    rw [Lexeme.mark_of_read hread]
    exact ⟨hlead.here, hlead.solid⟩
  | cut _ _ _ ih => exact ih hbroken

/-- Every cut takes characters of the text, and none is the end of the text. -/
theorem Cutting.inner {rules : Rules} {text : List Char} {n : Nat} {cuts : List Cut}
    {ending : Ending} (h : Cutting rules text n cuts ending) :
    ∀ c ∈ cuts, c.piece.kind ≠ .endOfInput ∧ c.start < c.stop ∧ c.stop ≤ text.length := by
  induction h with
  | complete _ | broken _ _ => simp
  | cut hlead hread _ ih =>
    intro c hc
    rcases List.mem_cons.mp hc with rfl | hc
    · exact ⟨Lexeme.kind_ne_endOfInput hread, Nat.lt_add_of_pos_right (Lexeme.read_pos hread),
        hlead.stop_le hread⟩
    · exact ih c hc

theorem Cutting.start_ge {rules : Rules} {text : List Char} {n : Nat} {cuts : List Cut}
    {ending : Ending} (h : Cutting rules text n cuts ending) : ∀ c ∈ cuts, n ≤ c.start := by
  induction h with
  | complete _ | broken _ _ => simp
  | cut hlead _ _ ih =>
    intro c hc
    have hle := hlead.blanks.le
    rcases List.mem_cons.mp hc with rfl | hc
    · exact hle
    · have hstart := ih c hc
      omega

/-- A cut begins where the one in front of it ends, or later. -/
theorem Cutting.pairwise_le {rules : Rules} {text : List Char} {n : Nat} {cuts : List Cut}
    {ending : Ending} (h : Cutting rules text n cuts ending) :
    cuts.Pairwise fun a b => a.stop ≤ b.start := by
  induction h with
  | complete _ | broken _ _ => exact List.Pairwise.nil
  | cut _ _ hrest ih => exact List.Pairwise.cons hrest.start_ge ih

/-- A cut ends before a later one does. -/
theorem Cutting.pairwise {rules : Rules} {text : List Char} {n : Nat} {cuts : List Cut}
    {ending : Ending} (h : Cutting rules text n cuts ending) :
    cuts.Pairwise fun a b => a.stop < b.stop := by
  refine h.pairwise_le.imp_of_mem ?_
  intro a b _ hb hle
  exact Nat.lt_of_le_of_lt hle (h.inner b hb).2.1

/-- A text can be divided from every index on. -/
theorem exists_cutting (rules : Rules) {text : List Char} {n : Nat} (h : n ≤ text.length) :
    ∃ cuts ending, Cutting rules text n cuts ending := by
  induction hk : text.length - n using Nat.strongRecOn generalizing n with
  | ind k ih =>
    cases hdrop : text.drop (solidFrom text n) with
    | nil =>
      have hblanks := blanks_solidFrom h
      rw [solidFrom_eq_length h hdrop] at hblanks
      exact ⟨[], .complete, .complete hblanks⟩
    | cons c rest =>
      have hlead := lead_solidFrom h hdrop
      cases hread : Lexeme.read rules c (text.drop (solidFrom text n + 1)) with
      | error fault => exact ⟨[], _, .broken hlead hread⟩
      | ok piece =>
        have hpos := Lexeme.read_pos hread
        have hle := hlead.blanks.le
        have hlt := hlead.lt
        obtain ⟨cuts, ending, hrest⟩ := ih _ (by omega) (hlead.stop_le hread) rfl
        exact ⟨_, ending, .cut hlead hread hrest⟩

end PhpTokens
