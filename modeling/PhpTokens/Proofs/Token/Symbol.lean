import PhpTokens.Token.Symbol
import PhpTokens.Text.CharClass

/-! The table of symbols. Different symbols have different spellings, none of which begins like a
word, a literal or a comment. The symbol found at the front of a text is the longest one there, and
the one character behind it is enough to know that: whatever spelling goes on from a shorter one
passes through the spellings between them. -/

namespace PhpTokens.Symbol

theorem mem_all (s : Symbol) : s ∈ all := by cases s <;> decide

theorem spelling_injective {s t : Symbol} (h : s.spelling = t.spelling) : s = t := by
  have hall : ∀ s ∈ all, ∀ t ∈ all, s.spelling = t.spelling → s = t := by decide +kernel
  exact hall s (mem_all s) t (mem_all t) h

/-- The longer spellings stand first. -/
theorem all_pairwise : all.Pairwise fun s t => t.spelling.length ≤ s.spelling.length := by
  decide +kernel

/-- Between a spelling and one that goes on from it stands the one that is longer by a character. -/
theorem exists_spelling_take {s t : Symbol} (h : s.spelling <+: t.spelling)
    (hlt : s.spelling.length < t.spelling.length) :
    ∃ u : Symbol, u.spelling = t.spelling.take (s.spelling.length + 1) := by
  have hall : ∀ s ∈ all, ∀ t ∈ all, s.spelling <+: t.spelling →
      s.spelling.length < t.spelling.length →
      ∃ u ∈ all, u.spelling = t.spelling.take (s.spelling.length + 1) := by decide +kernel
  obtain ⟨u, _, hu⟩ := hall s (mem_all s) t (mem_all t) h hlt
  exact ⟨u, hu⟩

/-- The first character of a symbol is in no word and selects no other way of reading. -/
theorem exists_spelling_eq_cons (s : Symbol) :
    ∃ c rest, s.spelling = c :: rest ∧ CharClass.isWordPart c = false ∧
      c ∉ ['$', '"', '#'] := by
  have hall : all.all (fun s => s.spelling.head?.any fun c =>
      !CharClass.isWordPart c && decide (c ∉ ['$', '"', '#'])) = true := by
    decide +kernel
  have hs := List.all_eq_true.mp hall s (mem_all s)
  cases hspelling : s.spelling with
  | nil => simp [hspelling] at hs
  | cons c rest =>
    refine ⟨c, rest, rfl, ?_⟩
    simpa [hspelling] using hs

/-- No blank is part of a symbol. -/
theorem not_isBlank_spelling {s : Symbol} {c : Char} (h : c ∈ s.spelling) :
    CharClass.isBlank c = false := by
  have hall : all.all (fun s => s.spelling.all fun c => !CharClass.isBlank c) = true := by
    decide +kernel
  simpa using List.all_eq_true.mp (List.all_eq_true.mp hall s (mem_all s)) c h

theorem prefix_of_leading? {s : Symbol} {text : List Char} (h : leading? text = some s) :
    s.spelling <+: text := by
  simpa using List.find?_some h

theorem leading?_eq_none_iff {text : List Char} :
    leading? text = none ↔ ∀ s : Symbol, ¬ s.spelling <+: text := by
  simp only [leading?, List.find?_eq_none, List.isPrefixOf_iff_prefix]
  exact ⟨fun h s => h s (mem_all s), fun h s _ => h s⟩

/-- The characters that are symbols alone. -/
def single : List Char :=
  ['\x7b', '\x7d', '(', ')', ';', '\\', ',', '.', ':', '-', '&', '|', '+', '=', '!']

/-- A text begins with a symbol if its first character is one, or with the one symbol whose first
character is none. -/
theorem exists_prefix_iff {c : Char} {rest : List Char} :
    (∃ s : Symbol, s.spelling <+: c :: rest) ↔
      c ∈ single ∨ ['<', '?', 'p', 'h', 'p'] <+: c :: rest := by
  constructor
  · rintro ⟨s, hs⟩
    have hall : ∀ s ∈ all, s = .openTag ∨ s.spelling.head?.any (single.contains ·) := by
      decide +kernel
    obtain rfl | hhead := hall s (mem_all s)
    · exact .inr hs
    · obtain ⟨d, more, hspelling, _⟩ := s.exists_spelling_eq_cons
      rw [hspelling, List.cons_prefix_cons] at hs
      rw [hspelling, hs.1] at hhead
      exact .inl (by simpa using hhead)
  · rintro (hc | htag)
    · have hall : (single.all fun c => all.any fun s => s.spelling == [c]) = true := by
        decide +kernel
      obtain ⟨s, _, hs⟩ := List.any_eq_true.mp (List.all_eq_true.mp hall c hc)
      exact ⟨s, by simp [eq_of_beq hs]⟩
    · exact ⟨.openTag, htag⟩

theorem leading?_cons_eq_none_iff {c : Char} {rest : List Char} :
    leading? (c :: rest) = none ↔ c ∉ single ∧ ¬ ['<', '?', 'p', 'h', 'p'] <+: c :: rest := by
  rw [leading?_eq_none_iff, ← not_exists, exists_prefix_iff, not_or]

/-- The symbol found is the longest one at the front of the text. -/
theorem length_le_of_leading? {s t : Symbol} {text : List Char} (h : leading? text = some s)
    (ht : t.spelling <+: text) : t.spelling.length ≤ s.spelling.length := by
  obtain ⟨_, before, behind, hall, hbefore⟩ := List.find?_eq_some_iff_append.mp h
  have horder := all_pairwise
  rw [hall] at horder
  have hmem := mem_all t
  rw [hall] at hmem
  rcases List.mem_append.mp hmem with hmem | hmem
  · have hnone := hbefore t hmem
    rw [List.isPrefixOf_iff_prefix.mpr ht] at hnone
    cases hnone
  · rcases List.mem_cons.mp hmem with rfl | hmem
    · exact Nat.le_refl _
    · exact List.rel_of_pairwise_cons (List.pairwise_append.mp horder).2.1 hmem

theorem leading?_eq_some_iff {s : Symbol} {text : List Char} :
    leading? text = some s ↔
      s.spelling <+: text ∧
        ∀ t : Symbol, t.spelling <+: text → t.spelling.length ≤ s.spelling.length := by
  constructor
  · intro h
    exact ⟨prefix_of_leading? h, fun t ht => length_le_of_leading? h ht⟩
  · rintro ⟨hs, hlongest⟩
    cases hfound : leading? text with
    | none =>
      have hnone := List.find?_eq_none.mp hfound s (mem_all s)
      simp [hs] at hnone
    | some t =>
      have ht := prefix_of_leading? hfound
      have hlength := Nat.le_antisymm (hlongest t ht) (length_le_of_leading? hfound hs)
      have hts := List.prefix_of_prefix_length_le ht hs (Nat.le_of_eq hlength)
      rw [spelling_injective (hts.eq_of_length hlength)]

/-- The next character decides whether a symbol ends: a longer one would go on with it. -/
theorem leading?_append_iff {s : Symbol} {rest : List Char} :
    leading? (s.spelling ++ rest) = some s ↔
      ∀ t : Symbol, ∀ c, rest.head? = some c → t.spelling ≠ s.spelling ++ [c] := by
  rw [leading?_eq_some_iff]
  constructor
  · rintro ⟨_, hlongest⟩ t c hc ht
    obtain ⟨more, rfl⟩ := List.head?_eq_some_iff.mp hc
    have hle := hlongest t ⟨more, by simp [ht]⟩
    rw [ht, List.length_append, List.length_singleton] at hle
    omega
  · intro hnext
    refine ⟨List.prefix_append _ _, fun t ht => Nat.le_of_not_lt fun hlt => ?_⟩
    have hst := List.prefix_of_prefix_length_le (List.prefix_append s.spelling rest) ht
      (Nat.le_of_lt hlt)
    obtain ⟨u, hu⟩ := exists_spelling_take hst hlt
    obtain ⟨more, hmore⟩ := hst
    cases more with
    | nil => simp [← hmore] at hlt
    | cons c more =>
      rw [← hmore, List.prefix_append_right_inj] at ht
      refine hnext u c ?_ ?_
      · obtain ⟨tail, htail⟩ := ht
        rw [← htail]
        rfl
      · rw [hu, ← hmore, List.take_append, List.take_of_length_le (Nat.le_succ _)]
        simp

end PhpTokens.Symbol
