import PhpTokens.Text.CharClass

/-! How the classes of characters lie to each other. No blank may stand in a word, and the ASCII
letters, of which the reserved words are made, are letters. -/

namespace PhpTokens.CharClass

/-- The code points of the blanks. -/
def blankCodes : List Nat :=
  [0x9, 0xa, 0xb, 0xc, 0xd, 0x20, 0x85, 0xa0, 0x1680, 0x2000, 0x2001, 0x2002, 0x2003, 0x2004,
    0x2005, 0x2006, 0x2007, 0x2008, 0x2009, 0x200a, 0x2028, 0x2029, 0x202f, 0x205f, 0x3000]

theorem mem_blankCodes {c : Char} (h : isBlank c = true) : c.toNat ∈ blankCodes := by
  have hrounds : CodeSet.whiteSpace.bounds.size.log2 + 1 = 5 := by decide +kernel
  have hsize : CodeSet.whiteSpace.bounds.size = 20 := rfl
  unfold isBlank CodeSet.contains CodeSet.rank at h
  rw [hrounds, hsize] at h
  generalize c.toNat = n at h ⊢
  -- five halvings of the table leave the runs of blanks, which `omega` counts out
  simp only [CodeSet.whiteSpace, CodeSet.rankBetween, Array.getD, Nat.zero_lt_succ, ↓reduceIte,
    Nat.zero_add, Nat.reduceDiv, List.size_toArray, List.length_cons, List.length_nil,
    Nat.reduceAdd, Nat.reduceLT, ↓reduceDIte, Array.getInternal_eq_getElem,
    List.getElem_toArray, List.getElem_cons_succ, List.getElem_cons_zero, Nat.lt_add_one,
    Nat.lt_irrefl, Nat.div_self, beq_iff_eq] at h
  simp only [blankCodes, List.mem_cons, List.not_mem_nil, or_false]
  repeat' split at h
  all_goals omega

theorem isWordPart_blankCodes : ∀ n ∈ blankCodes, isWordPart (Char.ofNat n) = false := by
  decide +kernel

/-- No blank is a letter or a number sign. -/
theorem isWordPart_of_isBlank {c : Char} (h : isBlank c = true) : isWordPart c = false := by
  have hcode := isWordPart_blankCodes c.toNat (mem_blankCodes h)
  rwa [Char.ofNat_toNat] at hcode

theorem isBlank_of_isWordPart {c : Char} (h : isWordPart c = true) : isBlank c = false := by
  cases hblank : isBlank c with
  | false => rfl
  | true => simp [isWordPart_of_isBlank hblank] at h

theorem isLetter_ascii :
    ∀ n < 128, (Char.ofNat n).isAlpha = true → isLetter (Char.ofNat n) = true := by
  decide +kernel

theorem isLetter_of_isAlpha {c : Char} (h : c.isAlpha = true) : isLetter c = true := by
  have hcode : c.toNat < 128 := by
    rcases Bool.or_eq_true_iff.mp h with hupper | hlower
    · have hle : c.toNat ≤ 'Z'.toNat := (of_decide_eq_true hupper).2
      exact Nat.lt_of_le_of_lt hle (by decide)
    · have hle : c.toNat ≤ 'z'.toNat := of_decide_eq_true (Bool.and_eq_true_iff.mp hlower).2
      exact Nat.lt_of_le_of_lt hle (by decide)
  have hletter := isLetter_ascii c.toNat hcode
  rw [Char.ofNat_toNat] at hletter
  exact hletter h

theorem isLetter_of_toLower {c : Char} (h : c.toLower.isAlpha = true) : isLetter c = true := by
  apply isLetter_of_isAlpha
  unfold Char.toLower at h
  split at h
  · next hupper => exact Bool.or_eq_true_iff.mpr (.inl (decide_eq_true hupper))
  · exact h

theorem isWordPart_of_isLetter {c : Char} (h : isLetter c = true) : isWordPart c = true := by
  simp [isWordPart, h]

theorem isWordPart_of_isNumeral {c : Char} (h : isNumeral c = true) : isWordPart c = true := by
  simp [isWordPart, h]

theorem isLetter_eq_false {c : Char} (h : isWordPart c = false) : isLetter c = false := by
  rw [isWordPart, Bool.or_eq_false_iff, Bool.or_eq_false_iff] at h
  exact h.1.1

theorem isNumeral_eq_false {c : Char} (h : isWordPart c = false) : isNumeral c = false := by
  rw [isWordPart, Bool.or_eq_false_iff, Bool.or_eq_false_iff] at h
  exact h.1.2

/-- The marks that select a way of reading are in no word. -/
theorem isWordPart_marks : ∀ c ∈ ['$', '"', '#'], isWordPart c = false := by
  have hall : ['$', '"', '#'].all (isWordPart · == false) = true := by decide +kernel
  intro c hc
  exact eq_of_beq (List.all_eq_true.mp hall c hc)

end PhpTokens.CharClass
