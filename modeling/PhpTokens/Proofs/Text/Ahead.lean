import PhpTokens.Proofs.SourceText
import PhpTokens.Proofs.Text.Movements

/-! Looking ahead and moving. What a reader sees of the next characters is what a movement by as
many characters passes, and if fewer are left it sees nothing, while the movement passes all of
them. So a word that is seen ahead is there, and moving by its length passes this word and no more.
The characters are cut out of the text at the byte where the one behind them begins. -/

namespace PhpTokens

namespace Utf8

/-- The byte where the character with the index `n` begins, found from one edge to the next. -/
def edge? : Nat → List Char → Option Nat
  | _, [] => none
  | 0, _ :: _ => some 0
  | n + 1, c :: cs => (edge? n cs).map (c.utf8Size + ·)

theorem edge?_eq (n : Nat) (cs : List Char) :
    edge? n cs = if n < cs.length then some (size (cs.take n)) else none := by
  induction cs generalizing n with
  | nil => cases n <;> rfl
  | cons c cs ih =>
    cases n with
    | zero => rfl
    | succ n =>
      rw [edge?, ih, List.length_cons, List.take_succ_cons, size_cons]
      simp only [Nat.succ_lt_succ_iff]
      split <;> rfl

end Utf8

namespace TextReader

/-- The next `n` characters: a front of the unread text, cut off where the character behind them
begins; all of it, if there is no such character but there are `n`; and otherwise nothing. -/
def cutAhead? (n : Nat) (k : TextReader) : Option (List Char) :=
  match Utf8.edge? n k.unread with
  | some stop => SourceText.partOf? ⟨0, stop⟩ k.unread
  | none => some (if k.unread.length = n then k.unread else [])

theorem ahead_of_le {n : Nat} {k : TextReader} (h : n ≤ k.unread.length) :
    k.ahead n = k.unread.take n := if_pos (List.length_take_of_le h)

theorem ahead_of_lt {n : Nat} {k : TextReader} (h : k.unread.length < n) : k.ahead n = [] := by
  refine if_neg fun hlength => ?_
  rw [List.length_take, Nat.min_eq_right (Nat.le_of_lt h)] at hlength
  exact Nat.ne_of_lt h hlength

/-- The cut is always at the edge of a character. -/
theorem cutAhead?_eq (n : Nat) (k : TextReader) : k.cutAhead? n = some (k.ahead n) := by
  rw [cutAhead?, Utf8.edge?_eq]
  rcases Nat.lt_trichotomy n k.unread.length with hlt | heq | hgt
  · rw [if_pos hlt, ahead_of_le (Nat.le_of_lt hlt)]
    exact SourceText.partOf?_eq_some_iff.mpr
      ⟨0, n, Nat.zero_le n, Nat.le_of_lt hlt, rfl, rfl, rfl⟩
  · rw [if_neg (Nat.not_lt.mpr (Nat.le_of_eq heq.symm)), ahead_of_le (Nat.le_of_eq heq), heq,
      List.take_length]
    simp only [if_true]
  · rw [if_neg (Nat.not_lt.mpr (Nat.le_of_lt hgt)), ahead_of_lt hgt]
    simp only [if_neg (Nat.ne_of_lt hgt)]

/-- A word is seen ahead exactly when the unread text begins with it. -/
theorem ahead_eq_iff {p : List Char} (hp : p ≠ []) (k : TextReader) :
    k.ahead p.length = p ↔ p <+: k.unread := by
  rcases Nat.lt_or_ge k.unread.length p.length with hlt | hle
  · rw [ahead_of_lt hlt]
    refine iff_of_false (Ne.symm hp) fun hprefix => ?_
    exact Nat.not_le.mpr hlt hprefix.length_le
  · rw [ahead_of_le hle, List.prefix_iff_eq_take, eq_comm]

/-- The text that a movement by `n` characters passes. -/
def passedBy (text : List Char) (k : TextReader) (n : Nat) : Option (List Char) :=
  SourceText.partOf? ⟨k.offset, (k.move n).2.offset⟩ text

/-- What the next `n` characters tell about a movement by `n` characters. -/
structure Foretells (text : List Char) (k : TextReader) (n : Nat) : Prop where
  /-- What is unread is the text behind the bytes passed. -/
  unread_eq : SourceText.dropBytes? k.offset text = some k.unread
  cut_eq : k.cutAhead? n = some (k.ahead n)
  enough : n ≤ k.unread.length →
    (k.ahead n).length = n ∧ k.ahead n <+: k.unread ∧
      (k.move n).1 = n ∧ passedBy text k n = some (k.ahead n)
  short : k.unread.length < n →
    k.ahead n = [] ∧ (k.move n).1 = k.unread.length ∧
      passedBy text k n = some k.unread ∧ (k.move n).2.isDone = true
  /-- A word of that length is seen exactly where it is, and it is what the movement passes. -/
  word : ∀ p ≠ [], p.length = n →
    (k.ahead n = p ↔ p <+: k.unread) ∧
      (k.ahead n = p → (k.move n).1 = p.length ∧ passedBy text k n = some p)

section Behind

variable (rule : NewlineRule) {text : List Char} {m n : Nat}

theorem passedBy_behind (h : m + n ≤ text.length) :
    passedBy text (behind rule text m) n = some ((text.drop m).take n) := by
  rw [passedBy, move_behind h]
  exact SourceText.partOf?_eq_some_iff.mpr
    ⟨m, m + n, Nat.le_add_right m n, h, rfl, rfl, by rw [Nat.add_sub_cancel_left]⟩

variable (hm : m ≤ text.length)
include hm

theorem passedBy_of_le (h : n ≤ (behind rule text m).unread.length) :
    passedBy text (behind rule text m) n = some ((behind rule text m).ahead n) := by
  have hlength : (behind rule text m).unread.length = text.length - m := List.length_drop
  rw [ahead_of_le h]
  exact passedBy_behind rule (by omega)

/-- A movement by more than there is passes all that there is. -/
theorem passedBy_of_lt (h : (behind rule text m).unread.length < n) :
    passedBy text (behind rule text m) n = some (behind rule text m).unread := by
  have hmin := move_min n (behind rule text m)
  rw [Nat.min_eq_right (Nat.le_of_lt h)] at hmin
  have hall := passedBy_of_le rule hm (Nat.le_refl (behind rule text m).unread.length)
  rwa [ahead_of_le (Nat.le_refl _), List.take_length, passedBy, hmin] at hall

theorem foretells_behind (n : Nat) : (behind rule text m).Foretells text n where
  unread_eq := SourceText.dropBytes?_eq_some_iff.mpr ⟨m, hm, rfl, rfl⟩
  cut_eq := cutAhead?_eq n _
  enough h := by
    refine ⟨?_, ?_, ?_, passedBy_of_le rule hm h⟩
    · rw [ahead_of_le h, List.length_take_of_le h]
    · rw [ahead_of_le h]
      exact List.take_prefix _ _
    · rw [move_count, Nat.min_eq_left h]
  short h := by
    refine ⟨ahead_of_lt h, ?_, passedBy_of_lt rule hm h, ?_⟩
    · rw [move_count, Nat.min_eq_right (Nat.le_of_lt h)]
    · rw [isDone, move_unread, List.drop_eq_nil_of_le (Nat.le_of_lt h)]
      rfl
  word p hp hn := by
    subst hn
    refine ⟨ahead_eq_iff hp _, fun hahead => ?_⟩
    have hle := ((ahead_eq_iff hp _).mp hahead).length_le
    rw [move_count, Nat.min_eq_left hle, passedBy_of_le rule hm hle, hahead]
    exact ⟨rfl, rfl⟩

end Behind

/-- Looking ahead foretells moving. Wherever movements have led a reader, if `n` characters are left
it sees exactly `n`, the ones that a movement by `n` characters passes; if fewer are left it sees
nothing, and the movement passes all of them. So a word of `n` characters is seen ahead exactly when
the unread text begins with it, and then the movement passes this word. -/
theorem ahead_foretells_move (rule : NewlineRule) (text : List Char) (k : TextReader)
    (h : k.Reached rule text) (n : Nat) : k.Foretells text n := by
  obtain ⟨m, hm, rfl⟩ := reached_iff.mp h
  exact foretells_behind rule hm n

/-- Behind a letter of two bytes, where three characters are left and the last one has two. -/
theorem ahead_foretells_move_accented :
    let text := ['é', '=', '\n', 'ü']
    let k : TextReader := ⟨.whenNext, ['=', '\n', 'ü'], 2, 1, 2⟩
    k.Reached .whenNext text ∧ k.ahead 3 = ['=', '\n', 'ü'] ∧
      k.move 3 = (3, ⟨.whenNext, [], 6, 2, 3⟩) ∧ k.ahead 4 = [] ∧
      k.Foretells text 3 ∧ k.Foretells text 4 := by
  have hreached : (⟨.whenNext, ['=', '\n', 'ü'], 2, 1, 2⟩ : TextReader).Reached .whenNext
      ['é', '=', '\n', 'ü'] := ⟨[.bytes 1, .chars 1], [0, 1], by rfl⟩
  exact ⟨hreached, by decide, by decide, by decide, ahead_foretells_move _ _ _ hreached 3,
    ahead_foretells_move _ _ _ hreached 4⟩

end TextReader
end PhpTokens
