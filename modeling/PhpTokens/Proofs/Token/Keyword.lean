import PhpTokens.Token.Keyword
import PhpTokens.Proofs.Text.CharClass

/-! The table of reserved words. A text spells a keyword up to the case of its letters only, and no
spelling begins another, so that the front of a text holds one keyword at most. The word that is
looked up as a whole and the keyword that is cut off a longer text come from the same table. -/

namespace PhpTokens.Keyword

/-- A reserved word stands at the front of a text. -/
def Begins (k : Keyword) (text : List Char) : Prop := ∃ p, p <+: text ∧ k.spelledBy p = true

theorem map_toLower_spelling (k : Keyword) : k.spelling.map Char.toLower = k.spelling := by
  cases k <;> decide

theorem isAlpha_spelling (k : Keyword) : ∀ c ∈ k.spelling, c.isAlpha = true := by
  have hall : k.spelling.all Char.isAlpha = true := by cases k <;> decide
  exact List.all_eq_true.mp hall

theorem spelling_prefix_free {k k' : Keyword} (h : k.spelling <+: k'.spelling) : k = k' := by
  cases k <;> cases k' <;> first | rfl | exact absurd h (by decide)

theorem map_toLower_of_spelledBy {k : Keyword} {text : List Char} (h : k.spelledBy text = true) :
    text.map Char.toLower = k.spelling := by
  cases k with
  | nullWord => exact eq_of_beq h
  | _ =>
    have htext := eq_of_beq h
    rw [htext, map_toLower_spelling]

theorem length_of_spelledBy {k : Keyword} {text : List Char} (h : k.spelledBy text = true) :
    text.length = k.spelling.length := by
  rw [← map_toLower_of_spelledBy h, List.length_map]

theorem isLetter_of_spelledBy {k : Keyword} {text : List Char} (h : k.spelledBy text = true) :
    ∀ c ∈ text, CharClass.isLetter c = true := by
  intro c hc
  apply CharClass.isLetter_of_toLower
  apply isAlpha_spelling k
  rw [← map_toLower_of_spelledBy h]
  exact List.mem_map_of_mem hc

/-- At most one keyword stands at the front of a text. -/
theorem Begins.unique {k k' : Keyword} {text : List Char} (h : k.Begins text)
    (h' : k'.Begins text) : k = k' := by
  obtain ⟨p, hp, hspell⟩ := h
  obtain ⟨p', hp', hspell'⟩ := h'
  have hlower := map_toLower_of_spelledBy hspell
  have hlower' := map_toLower_of_spelledBy hspell'
  rcases List.prefix_or_prefix_of_prefix hp hp' with hpp | hpp
  · have hmap := hpp.map Char.toLower
    rw [hlower, hlower'] at hmap
    exact spelling_prefix_free hmap
  · have hmap := hpp.map Char.toLower
    rw [hlower, hlower'] at hmap
    exact (spelling_prefix_free hmap).symm

theorem begins_iff {k : Keyword} {text : List Char} :
    k.Begins text ↔ k.spelledBy (text.take k.spelling.length) = true := by
  constructor
  · rintro ⟨p, hp, hspell⟩
    rwa [← length_of_spelledBy hspell, ← List.prefix_iff_eq_take.mp hp]
  · intro h
    exact ⟨_, List.take_prefix _ _, h⟩

theorem mem_all (k : Keyword) : k ∈ all := by cases k <;> decide

theorem begins_of_leadingIn? {order : List Keyword} {text : List Char} {k : Keyword}
    (h : leadingIn? order text = some k) : k.Begins text := by
  have hfound := List.find?_some h
  exact begins_iff.mpr (by simpa using hfound)

/-- Whatever the order of the table, the keyword found is the one that stands at the front. -/
theorem leadingIn?_eq_some_iff {order : List Keyword} (horder : ∀ k, k ∈ order) {text : List Char}
    {k : Keyword} : leadingIn? order text = some k ↔ k.Begins text := by
  constructor
  · exact begins_of_leadingIn?
  · intro h
    cases hfind : leadingIn? order text with
    | none =>
      have hnone := List.find?_eq_none.mp hfind k (horder k)
      exact absurd (begins_iff.mp h) hnone
    | some k' => rw [(begins_of_leadingIn? hfind).unique h]

theorem leading?_eq_some_iff {text : List Char} {k : Keyword} :
    leading? text = some k ↔ k.Begins text :=
  leadingIn?_eq_some_iff mem_all

theorem leading?_eq_none_iff {text : List Char} :
    leading? text = none ↔ ∀ k : Keyword, ¬ k.Begins text := by
  simp only [← leading?_eq_some_iff, Option.eq_none_iff_forall_ne_some, ne_eq]

/-- The look-up of a whole word agrees with the table. -/
theorem ofWord?_eq_some_iff {word : List Char} {k : Keyword} :
    ofWord? word = some k ↔ k.spelledBy word = true := by
  constructor
  · intro h
    unfold ofWord? at h
    split at h <;> try (cases h; rfl)
    split at h
    · next hnull =>
      cases h
      exact beq_iff_eq.mpr hnull
    · cases h
  · intro h
    cases k with
    | nullWord =>
      have hlower := map_toLower_of_spelledBy h
      unfold ofWord?
      split <;> exact if_pos hlower
    | _ =>
      have hword := eq_of_beq h
      rw [hword]
      rfl

theorem length_of_begins {k : Keyword} {text : List Char} (h : k.Begins text) :
    k.spelling.length ≤ text.length := by
  obtain ⟨p, hp, hspell⟩ := h
  rw [← length_of_spelledBy hspell]
  exact hp.length_le

/-- A keyword at the front of a text belongs to the word there. -/
theorem begins_takeWhile_iff {k : Keyword} {text : List Char} :
    k.Begins (text.takeWhile CharClass.isWordPart) ↔ k.Begins text := by
  constructor
  · rintro ⟨p, hp, hspell⟩
    exact ⟨p, hp.trans (List.takeWhile_prefix _), hspell⟩
  · rintro ⟨p, ⟨rest, rfl⟩, hspell⟩
    refine ⟨p, ?_, hspell⟩
    have hparts : ∀ c ∈ p, CharClass.isWordPart c = true := fun c hc =>
      CharClass.isWordPart_of_isLetter (isLetter_of_spelledBy hspell c hc)
    rw [List.takeWhile_append_of_pos hparts]
    exact List.prefix_append _ _

end PhpTokens.Keyword
