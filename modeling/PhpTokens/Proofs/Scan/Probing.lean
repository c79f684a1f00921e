import PhpTokens.Proofs.Scan.ByteSearch
import PhpTokens.Proofs.Text.Ahead

/-! Words of a table compared with the text ahead, each as far as it reaches. A word that would
reach beyond the end is compared with nothing and does not fit. No keyword begins another one, so
at most one of them fits, and it makes no difference in which order they are tried; the table is
the one in which whole words are looked up. -/

namespace PhpTokens

/-- A comparison with nothing fails as one with a front that is too short. -/
theorem Keyword.spelledBy_ahead (word : Keyword) (k : TextReader) :
    word.spelledBy (k.ahead word.spelling.length) =
      word.spelledBy (k.unread.take word.spelling.length) := by
  rcases Nat.lt_or_ge k.unread.length word.spelling.length with hshort | hle
  · have hnil : word.spelledBy [] = false := by cases word <;> rfl
    rw [TextReader.ahead_of_lt hshort, hnil, eq_comm, Bool.eq_false_iff]
    intro hspelled
    have hlength := length_of_spelledBy hspelled
    rw [List.length_take] at hlength
    omega
  · rw [TextReader.ahead_of_le hle]

theorem Symbol.spelling_beq_ahead (symbol : Symbol) (k : TextReader) :
    (symbol.spelling == k.ahead symbol.spelling.length) = symbol.spelling.isPrefixOf k.unread := by
  have hne : symbol.spelling ≠ [] := by
    obtain ⟨c, rest, hspelling, _⟩ := symbol.exists_spelling_eq_cons
    rw [hspelling]
    exact List.cons_ne_nil c rest
  rw [Bool.eq_iff_iff, beq_iff_eq, List.isPrefixOf_iff_prefix, eq_comm, TextReader.ahead_eq_iff hne]

namespace Keyword

theorem nodup_all : all.Nodup := by decide

/-- A condition that one keyword alone meets finds this keyword in the table, and no other. -/
theorem filter_all_eq {p : Keyword → Bool} {k : Keyword} (h : ∀ k', p k' = true ↔ k' = k) :
    all.filter p = [k] := by
  have hsingle : [k].Nodup := List.pairwise_singleton _ k
  rw [← List.perm_singleton, List.perm_ext_iff_of_nodup (nodup_all.filter p) hsingle]
  intro k'
  rw [List.mem_filter, List.mem_singleton, h k']
  exact and_iff_right (mem_all k')

theorem length_filter_all_le {p : Keyword → Bool}
    (h : ∀ k k', p k = true → p k' = true → k = k') : (all.filter p).length ≤ 1 := by
  cases hfilter : all.filter p with
  | nil => exact Nat.zero_le 1
  | cons k more =>
    have hk : p k = true := (List.mem_filter.mp (hfilter ▸ List.mem_cons_self)).2
    have hone : all.filter p = [k] :=
      filter_all_eq fun k' => ⟨fun hk' => h k' k hk' hk, fun he => he ▸ hk⟩
    rw [← hfilter, hone]
    exact Nat.le_refl 1

/-- Keywords whose spellings stand at the front of each other are the same. -/
theorem eq_of_prefix {k k' : Keyword} {w w' : List Char} (hw : k.spelledBy w = true)
    (hw' : k'.spelledBy w' = true) (h : w <+: w') : k = k' :=
  Begins.unique ⟨w, h, hw⟩ ⟨w', List.prefix_rfl, hw'⟩

theorem leadingIn?_of_perm {order : List Keyword} (h : order.Perm all) (text : List Char) :
    leadingIn? order text = leading? text := by
  have horder : ∀ k, k ∈ order := fun k => h.mem_iff.mpr (mem_all k)
  ext k
  rw [leadingIn?_eq_some_iff horder, leading?_eq_some_iff]

/-- The keyword fits the text ahead of a reader. -/
def fits (k : TextReader) (word : Keyword) : Bool := word.spelledBy (k.ahead word.spelling.length)

theorem fits_iff {k : TextReader} {word : Keyword} : word.fits k = true ↔ word.Begins k.unread := by
  rw [fits, spelledBy_ahead, begins_iff]

end Keyword

namespace TextReader

/-- Reads a word and tries the keywords in the order of a table: passes the first one that fits, or
the whole word if none does. -/
def probeWord (order : List Keyword) (k : TextReader) : Passage :=
  match order.find? (Keyword.fits k) with
  | some word =>
    let (length, after) := k.move word.spelling.length
    ⟨.keyword word, length, after⟩
  | none =>
    ⟨.identifier, (k.unread.takeWhile CharClass.isWordPart).length,
      k.passWhile CharClass.isWordPart⟩

theorem find?_fits (order : List Keyword) (k : TextReader) :
    order.find? (Keyword.fits k) = Keyword.leadingIn? order k.unread := by
  rw [Keyword.leadingIn?]
  congr 1
  funext word
  exact word.spelledBy_ahead k

/-- In whatever order the keywords are tried, the piece passed is the one at the front. -/
theorem probeWord_of_perm {order : List Keyword} (h : order.Perm Keyword.all) (k : TextReader) :
    k.probeWord order = k.passage (Lexeme.ofWord .leading k.unread) := by
  rw [probeWord, find?_fits, Keyword.leadingIn?_of_perm h]
  cases hword : Keyword.leading? k.unread with
  | none => simp only [Lexeme.ofWord, hword, passage, passWhile, Lexeme.wordLength]
  | some word =>
    have hlength := Keyword.length_of_begins (Keyword.leading?_eq_some_iff.mp hword)
    simp only [Lexeme.ofWord, hword, passage, move_count, Nat.min_eq_left hlength]

end TextReader

/-- One table of keywords, none of which begins another one. A whole word is looked up as the
keyword that it spells, which is one entry of the table alone; at most one entry fits the text
ahead of a reader, and the word that is read there by trying the entries, its kind, its length and
the place behind it, is the same for every order of the table. -/
theorem keywords_one_table :
    (∀ w k, Keyword.ofWord? w = some k ↔ k ∈ Keyword.all ∧ k.spelledBy w = true) ∧
    (∀ w k, Keyword.ofWord? w = some k → Keyword.all.filter (·.spelledBy w) = [k]) ∧
    (∀ (k k' : Keyword) (w w' : List Char), k.spelledBy w = true → k'.spelledBy w' = true →
      w <+: w' → k = k') ∧
    (∀ reader : TextReader, (Keyword.all.filter (Keyword.fits reader)).length ≤ 1) ∧
    ∀ (order : List Keyword) (reader : TextReader), order.Perm Keyword.all →
      reader.probeWord order = reader.passage (Lexeme.ofWord .leading reader.unread) := by
  refine ⟨fun w k => ?_, fun w k hk => ?_, fun _ _ _ _ => Keyword.eq_of_prefix, fun reader => ?_,
    fun _ reader horder => TextReader.probeWord_of_perm horder reader⟩
  · rw [Keyword.ofWord?_eq_some_iff]
    exact (and_iff_right k.mem_all).symm
  · have hspelled := Keyword.ofWord?_eq_some_iff.mp hk
    refine Keyword.filter_all_eq fun k' => ⟨fun hk' => ?_, fun he => he ▸ hspelled⟩
    exact Keyword.eq_of_prefix hk' hspelled List.prefix_rfl
  · apply Keyword.length_filter_all_le
    intro k k' hk hk'
    exact (Keyword.fits_iff.mp hk).unique (Keyword.fits_iff.mp hk')

end PhpTokens
