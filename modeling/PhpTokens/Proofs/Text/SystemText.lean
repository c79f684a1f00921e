import Mathlib.Data.List.Forall2
import Mathlib.Data.List.Infix
import Mathlib.Tactic.MkIffOfInductiveProp
import PhpTokens.Text.SystemText

/-! Text of the system in print. What is shown for bytes is told apart from how it is found: the
bytes are cut into characters and broken pieces in the only way there is, each character is shown
as it is, and each piece as one mark. -/

namespace PhpTokens.SystemText

/-- Some character begins with these bytes. -/
def Begins (bs : List UInt8) : Prop := ∃ c : Char, bs <+: String.utf8EncodeChar c

/-- A piece of bytes that is cut off because no character stands at the front. -/
structure Broken (piece rest : List UInt8) : Prop where
  ne_nil : piece ≠ []
  no_char : ∀ c : Char, ¬ String.utf8EncodeChar c <+: piece ++ rest
  begins : piece.length = 1 ∨ Begins piece
  /-- No character goes on with it. -/
  longest : ∀ b, [b] <+: rest → ¬ Begins (piece ++ [b])

/-- Characters that are shown for bytes. -/
@[mk_iff]
inductive Shows : List UInt8 → List Char → Prop where
  | nil : Shows [] []
  | char (c : Char) {bs : List UInt8} {cs : List Char} (h : Shows bs cs) :
      Shows (String.utf8EncodeChar c ++ bs) (c :: cs)
  | broken {piece rest : List UInt8} {cs : List Char} (hpiece : Broken piece rest)
      (h : Shows rest cs) : Shows (piece ++ rest) ('\ufffd' :: cs)

/-- A byte lies in a range. -/
def InRange (range : UInt8 × UInt8) (b : UInt8) : Prop := range.1 ≤ b ∧ b ≤ range.2

instance (range : UInt8 × UInt8) (b : UInt8) : Decidable (InRange range b) :=
  inferInstanceAs (Decidable (range.1 ≤ b ∧ b ≤ range.2))

section Table

theorem inRange_ofNat (low high n : Nat) (hhigh : high < 256) (h : low ≤ n ∧ n ≤ high) :
    InRange (UInt8.ofNat low, UInt8.ofNat high) (UInt8.ofNat n) := by
  simp only [InRange, UInt8.le_iff_toNat_le, UInt8.toNat_ofNat']
  omega

theorem inRange_continuation (n : Nat) : InRange continuation (UInt8.ofNat (n % 64 + 128)) :=
  inRange_ofNat 0x80 0xBF _ (by decide) (by omega)

/-- The table in numbers. -/
theorem ranges?_ofNat {n : Nat} (hn : n < 256) :
    ranges? (UInt8.ofNat n) =
      if n ≤ 0x7F then some []
      else if n ≤ 0xC1 then none
      else if n ≤ 0xDF then some [continuation]
      else if n = 0xE0 then some [(0xA0, 0xBF), continuation]
      else if n = 0xED then some [(0x80, 0x9F), continuation]
      else if n ≤ 0xEF then some [continuation, continuation]
      else if n = 0xF0 then some [(0x90, 0xBF), continuation, continuation]
      else if n ≤ 0xF3 then some [continuation, continuation, continuation]
      else if n = 0xF4 then some [(0x80, 0x8F), continuation, continuation]
      else none := by
  simp only [ranges?, UInt8.le_iff_toNat_le, ← UInt8.toNat_inj, UInt8.toNat_ofNat',
    Nat.mod_eq_of_lt hn]
  rfl

/-- The bytes of a character are what its first byte asks for, and they tell its code point. -/
theorem ranges?_of_encode {c : Char} {b : UInt8} {bs : List UInt8}
    (h : String.utf8EncodeChar c = b :: bs) :
    ∃ ranges, ranges? b = some ranges ∧ List.Forall₂ InRange ranges bs ∧
      codePoint (b :: bs) = c.toNat := by
  have hvalid : c.toNat.isValidChar := c.valid
  have hv : c.val.toNat = c.toNat := rfl
  simp only [Nat.isValidChar] at hvalid
  simp only [String.utf8EncodeChar, hv] at h
  generalize c.toNat = v at hvalid h ⊢
  have hlast := inRange_continuation v
  have hthird := inRange_continuation (v / 64)
  split at h
  · cases h
    rw [ranges?_ofNat (by omega), if_pos (by omega)]
    refine ⟨_, rfl, .nil, ?_⟩
    simp only [codePoint, UInt8.toNat_ofNat']
    omega
  · split at h
    · cases h
      rw [ranges?_ofNat (by omega), if_neg (by omega), if_neg (by omega), if_pos (by omega)]
      refine ⟨_, rfl, .cons hlast .nil, ?_⟩
      simp only [codePoint, UInt8.toNat_ofNat']
      omega
    · split at h
      · cases h
        have hcode : codePoint [UInt8.ofNat (v / 4096 % 16 + 224),
            UInt8.ofNat (v / 64 % 64 + 128), UInt8.ofNat (v % 64 + 128)] = v := by
          simp only [codePoint, UInt8.toNat_ofNat']
          omega
        rw [ranges?_ofNat (by omega), if_neg (by omega), if_neg (by omega), if_neg (by omega)]
        split
        · have hsecond := inRange_ofNat 0xA0 0xBF (v / 64 % 64 + 128) (by decide) (by omega)
          exact ⟨_, rfl, .cons hsecond (.cons hlast .nil), hcode⟩
        · split
          · have hsecond := inRange_ofNat 0x80 0x9F (v / 64 % 64 + 128) (by decide) (by omega)
            exact ⟨_, rfl, .cons hsecond (.cons hlast .nil), hcode⟩
          · rw [if_pos (by omega)]
            exact ⟨_, rfl, .cons hthird (.cons hlast .nil), hcode⟩
      · cases h
        have hcode : codePoint [UInt8.ofNat (v / 262144 % 8 + 240),
            UInt8.ofNat (v / 4096 % 64 + 128), UInt8.ofNat (v / 64 % 64 + 128),
            UInt8.ofNat (v % 64 + 128)] = v := by
          simp only [codePoint, UInt8.toNat_ofNat']
          omega
        rw [ranges?_ofNat (by omega), if_neg (by omega), if_neg (by omega), if_neg (by omega),
          if_neg (by omega), if_neg (by omega), if_neg (by omega)]
        split
        · have hsecond := inRange_ofNat 0x90 0xBF (v / 4096 % 64 + 128) (by decide) (by omega)
          exact ⟨_, rfl, .cons hsecond (.cons hthird (.cons hlast .nil)), hcode⟩
        · split
          · have hsecond := inRange_continuation (v / 4096)
            exact ⟨_, rfl, .cons hsecond (.cons hthird (.cons hlast .nil)), hcode⟩
          · have hsecond := inRange_ofNat 0x80 0x8F (v / 4096 % 64 + 128) (by decide) (by omega)
            rw [if_pos (by omega)]
            exact ⟨_, rfl, .cons hsecond (.cons hthird (.cons hlast .nil)), hcode⟩

/-- The bytes of the character with a given code point. -/
theorem encode_ofNat {v : Nat} (h : v.isValidChar) :
    String.utf8EncodeChar (Char.ofNat v) =
      if v ≤ 0x7F then [UInt8.ofNat v]
      else if v ≤ 0x7FF then [UInt8.ofNat (v / 64 % 32 + 192), UInt8.ofNat (v % 64 + 128)]
      else if v ≤ 0xFFFF then
        [UInt8.ofNat (v / 4096 % 16 + 224), UInt8.ofNat (v / 64 % 64 + 128),
          UInt8.ofNat (v % 64 + 128)]
      else
        [UInt8.ofNat (v / 262144 % 8 + 240), UInt8.ofNat (v / 4096 % 64 + 128),
          UInt8.ofNat (v / 64 % 64 + 128), UInt8.ofNat (v % 64 + 128)] := by
  have hv : (Char.ofNat v).val.toNat = v := by
    rw [Char.ofNat, dif_pos h]
    rfl
  simp only [String.utf8EncodeChar, hv]

theorem ofNat_eq {n : Nat} {b : UInt8} (h : n = b.toNat) : UInt8.ofNat n = b := by
  rw [h, UInt8.ofNat_toNat]

theorem exists_encode_one {a : UInt8} (ha : a.toNat ≤ 0x7F) :
    ∃ x, String.utf8EncodeChar x = [a] := by
  refine ⟨Char.ofNat a.toNat, ?_⟩
  rw [encode_ofNat (by simp only [Nat.isValidChar]; omega), if_pos ha, UInt8.ofNat_toNat]

theorem exists_encode_two {a b : UInt8} (ha : 0xC2 ≤ a.toNat ∧ a.toNat ≤ 0xDF)
    (hb : 0x80 ≤ b.toNat ∧ b.toNat ≤ 0xBF) : ∃ x, String.utf8EncodeChar x = [a, b] := by
  obtain ⟨v, hv⟩ : ∃ v, v = a.toNat % 32 * 64 + b.toNat % 64 := ⟨_, rfl⟩
  refine ⟨Char.ofNat v, ?_⟩
  rw [encode_ofNat (by simp only [Nat.isValidChar]; omega), if_neg (by omega), if_pos (by omega),
    ofNat_eq (b := a) (by omega), ofNat_eq (b := b) (by omega)]

theorem exists_encode_three {a b c : UInt8} (ha : 0xE0 ≤ a.toNat ∧ a.toNat ≤ 0xEF)
    (hb : 0x80 ≤ b.toNat ∧ b.toNat ≤ 0xBF) (hlow : a.toNat = 0xE0 → 0xA0 ≤ b.toNat)
    (hhigh : a.toNat = 0xED → b.toNat ≤ 0x9F) (hc : 0x80 ≤ c.toNat ∧ c.toNat ≤ 0xBF) :
    ∃ x, String.utf8EncodeChar x = [a, b, c] := by
  obtain ⟨v, hv⟩ : ∃ v, v = a.toNat % 16 * 4096 + b.toNat % 64 * 64 + c.toNat % 64 := ⟨_, rfl⟩
  refine ⟨Char.ofNat v, ?_⟩
  rw [encode_ofNat (by simp only [Nat.isValidChar]; omega), if_neg (by omega), if_neg (by omega),
    if_pos (by omega), ofNat_eq (b := a) (by omega), ofNat_eq (b := b) (by omega),
    ofNat_eq (b := c) (by omega)]

theorem exists_encode_four {a b c d : UInt8} (ha : 0xF0 ≤ a.toNat ∧ a.toNat ≤ 0xF4)
    (hb : 0x80 ≤ b.toNat ∧ b.toNat ≤ 0xBF) (hlow : a.toNat = 0xF0 → 0x90 ≤ b.toNat)
    (hhigh : a.toNat = 0xF4 → b.toNat ≤ 0x8F) (hc : 0x80 ≤ c.toNat ∧ c.toNat ≤ 0xBF)
    (hd : 0x80 ≤ d.toNat ∧ d.toNat ≤ 0xBF) : ∃ x, String.utf8EncodeChar x = [a, b, c, d] := by
  obtain ⟨v, hv⟩ : ∃ v, v = a.toNat % 8 * 262144 + b.toNat % 64 * 4096 + c.toNat % 64 * 64 +
    d.toNat % 64 := ⟨_, rfl⟩
  refine ⟨Char.ofNat v, ?_⟩
  rw [encode_ofNat (by simp only [Nat.isValidChar]; omega), if_neg (by omega), if_neg (by omega),
    if_neg (by omega), ofNat_eq (b := a) (by omega), ofNat_eq (b := b) (by omega),
    ofNat_eq (b := c) (by omega), ofNat_eq (b := d) (by omega)]

theorem two_in_range {r s : UInt8 × UInt8} {bs : List UInt8}
    (h : List.Forall₂ InRange [r, s] bs) : ∃ x y, bs = [x, y] ∧ InRange r x ∧ InRange s y := by
  obtain ⟨x, _, hx, hrest, rfl⟩ := List.forall₂_cons_left_iff.mp h
  obtain ⟨y, _, hy, hnil, rfl⟩ := List.forall₂_cons_left_iff.mp hrest
  cases hnil
  exact ⟨x, y, rfl, hx, hy⟩

theorem three_in_range {r s t : UInt8 × UInt8} {bs : List UInt8}
    (h : List.Forall₂ InRange [r, s, t] bs) :
    ∃ x y z, bs = [x, y, z] ∧ InRange r x ∧ InRange s y ∧ InRange t z := by
  obtain ⟨x, _, hx, hrest, rfl⟩ := List.forall₂_cons_left_iff.mp h
  obtain ⟨y, z, rfl, hy, hz⟩ := two_in_range hrest
  exact ⟨x, y, z, rfl, hx, hy, hz⟩

/-- Bytes that are what the first of them asks for are a character. -/
theorem exists_encode {b : UInt8} {ranges : List (UInt8 × UInt8)} {bs : List UInt8}
    (hranges : ranges? b = some ranges) (hbs : List.Forall₂ InRange ranges bs) :
    ∃ c, String.utf8EncodeChar c = b :: bs := by
  have hb : UInt8.ofNat b.toNat = b := UInt8.ofNat_toNat
  rw [← hb, ranges?_ofNat b.toNat_lt] at hranges
  split at hranges
  · next hone =>
    cases hranges
    cases hbs
    exact exists_encode_one hone
  split at hranges
  · cases hranges
  split at hranges
  · cases hranges
    obtain ⟨x, _, hx, hnil, rfl⟩ := List.forall₂_cons_left_iff.mp hbs
    cases hnil
    exact exists_encode_two (by omega) hx
  split at hranges
  · cases hranges
    obtain ⟨x, y, rfl, hx, hy⟩ := two_in_range hbs
    have hx : 0xA0 ≤ x.toNat ∧ x.toNat ≤ 0xBF := hx
    exact exists_encode_three (by omega) (by omega) (by omega) (by omega) hy
  split at hranges
  · cases hranges
    obtain ⟨x, y, rfl, hx, hy⟩ := two_in_range hbs
    have hx : 0x80 ≤ x.toNat ∧ x.toNat ≤ 0x9F := hx
    exact exists_encode_three (by omega) (by omega) (by omega) (by omega) hy
  split at hranges
  · cases hranges
    obtain ⟨x, y, rfl, hx, hy⟩ := two_in_range hbs
    exact exists_encode_three (by omega) hx (by omega) (by omega) hy
  split at hranges
  · cases hranges
    obtain ⟨x, y, z, rfl, hx, hy, hz⟩ := three_in_range hbs
    have hx : 0x90 ≤ x.toNat ∧ x.toNat ≤ 0xBF := hx
    exact exists_encode_four (by omega) (by omega) (by omega) (by omega) hy hz
  split at hranges
  · cases hranges
    obtain ⟨x, y, z, rfl, hx, hy, hz⟩ := three_in_range hbs
    exact exists_encode_four (by omega) hx (by omega) (by omega) hy hz
  split at hranges
  · cases hranges
    obtain ⟨x, y, z, rfl, hx, hy, hz⟩ := three_in_range hbs
    have hx : 0x80 ≤ x.toNat ∧ x.toNat ≤ 0x8F := hx
    exact exists_encode_four (by omega) (by omega) (by omega) (by omega) hy hz
  · cases hranges

/-- In every range there is a byte. -/
theorem low_inRange {b : UInt8} {ranges : List (UInt8 × UInt8)} (h : ranges? b = some ranges) :
    ∀ range ∈ ranges, InRange range range.1 := by
  simp only [ranges?] at h
  split_ifs at h <;> cases h <;> simp [InRange, continuation]

end Table

section Pieces

/-- Bytes can be gone on with to a character if and only if they are the first ones that the first
byte asks for. -/
theorem begins_cons_iff {b : UInt8} {bs : List UInt8} :
    Begins (b :: bs) ↔
      ∃ asked more, ranges? b = some (asked ++ more) ∧ List.Forall₂ InRange asked bs := by
  constructor
  · rintro ⟨c, rest, hc⟩
    obtain ⟨ranges, hranges, hfits, -⟩ := ranges?_of_encode hc.symm
    refine ⟨ranges.take bs.length, ranges.drop bs.length, ?_, List.forall₂_take_append _ _ _ hfits⟩
    rw [List.take_append_drop]
    exact hranges
  · rintro ⟨asked, more, hranges, hfits⟩
    have hlow : List.Forall₂ InRange more (more.map Prod.fst) := by
      rw [List.forall₂_map_right_iff, List.forall₂_same]
      exact fun range hrange => low_inRange hranges range (List.mem_append_right _ hrange)
    obtain ⟨c, hc⟩ := exists_encode hranges (List.rel_append hfits hlow)
    exact ⟨c, more.map Prod.fst, hc.symm⟩

/-- The bytes at the front that lie in their ranges, and the first that does not. -/
theorem exists_fitting (ranges : List (UInt8 × UInt8)) (bs : List UInt8) :
    ∃ asked more front rest, ranges = asked ++ more ∧ bs = front ++ rest ∧
      fitting ranges bs = front.length ∧ List.Forall₂ InRange asked front ∧
      ∀ range ∈ more.head?, ∀ b ∈ rest.head?, ¬ InRange range b := by
  fun_induction fitting ranges bs with
  | case1 low high ranges b bs hin ih =>
    obtain ⟨asked, more, front, rest, rfl, rfl, hlength, hfits, hstop⟩ := ih
    exact ⟨(low, high) :: asked, more, b :: front, rest, rfl, rfl, congrArg (· + 1) hlength,
      .cons hin hfits, hstop⟩
  | case2 low high ranges b bs hout =>
    refine ⟨[], (low, high) :: ranges, [], b :: bs, rfl, rfl, rfl, .nil, ?_⟩
    rintro _ ⟨⟩ _ ⟨⟩
    exact hout
  | case3 ranges bs hend =>
    refine ⟨[], ranges, [], bs, rfl, rfl, rfl, .nil, fun range hrange b hb => ?_⟩
    obtain ⟨ranges', rfl⟩ := List.head?_eq_some_iff.mp hrange
    obtain ⟨bs', rfl⟩ := List.head?_eq_some_iff.mp hb
    exact absurd rfl (hend _ _ _ _ _ rfl)

/-- In a character, the byte behind those that lie in their ranges lies in the next range. -/
theorem inRange_of_encode {b x : UInt8} {range : UInt8 × UInt8}
    {asked more : List (UInt8 × UInt8)} {front rest : List UInt8} {c : Char}
    (hranges : ranges? b = some (asked ++ range :: more)) (hfits : List.Forall₂ InRange asked front)
    (h : String.utf8EncodeChar c = b :: (front ++ x :: rest)) : InRange range x := by
  obtain ⟨ranges, hsame, hall, -⟩ := ranges?_of_encode h
  rw [hranges] at hsame
  cases hsame
  have hbehind := List.forall₂_drop_append _ _ _ hall
  rw [← hfits.length_eq, List.drop_left] at hbehind
  exact (List.forall₂_cons.mp hbehind).1

/-- A character at the front begins with the first byte. -/
theorem exists_encode_cons {c : Char} {b : UInt8} {bs : List UInt8}
    (h : String.utf8EncodeChar c <+: b :: bs) :
    ∃ rest, String.utf8EncodeChar c = b :: rest ∧ rest <+: bs := by
  rcases List.prefix_cons_iff.mp h with hnil | hcons
  · exact absurd hnil String.utf8EncodeChar_ne_nil
  · exact hcons

/-- A piece is broken if no character goes on with it and some ranges are not reached. -/
theorem broken_of_stop {b : UInt8} {range : UInt8 × UInt8} {asked more : List (UInt8 × UInt8)}
    {front rest : List UInt8} (hranges : ranges? b = some (asked ++ range :: more))
    (hfits : List.Forall₂ InRange asked front) (hstop : ∀ x ∈ rest.head?, ¬ InRange range x) :
    Broken (b :: front) rest where
  ne_nil := List.cons_ne_nil _ _
  no_char := by
    intro c hc
    obtain ⟨bs, hbs, behind, hsplit⟩ := exists_encode_cons hc
    obtain ⟨ranges, hsame, hall, -⟩ := ranges?_of_encode hbs
    rw [hranges] at hsame
    cases hsame
    have hlong := hall.length_eq
    rw [List.length_append, hfits.length_eq, List.length_cons] at hlong
    rcases List.append_eq_append_iff.mp hsplit with ⟨extra, hfront, -⟩ | ⟨extra, hextra, hrest⟩
    · rw [hfront, List.length_append] at hlong
      omega
    · cases extra with
      | nil =>
        rw [hextra, List.append_nil] at hlong
        omega
      | cons x extra =>
        rw [hextra] at hbs
        exact hstop x (by rw [hrest]; rfl) (inRange_of_encode hranges hfits hbs)
  begins := .inr (begins_cons_iff.mpr ⟨asked, range :: more, hranges, hfits⟩)
  longest := by
    rintro x ⟨behind, rfl⟩ ⟨c, extra, hc⟩
    rw [List.cons_append, List.cons_append, List.append_assoc, List.singleton_append] at hc
    exact hstop x rfl (inRange_of_encode hranges hfits hc.symm)

/-- A byte that no character begins with is a broken piece. -/
theorem broken_of_none {b : UInt8} (h : ranges? b = none) (rest : List UInt8) :
    Broken [b] rest := by
  have hnone : ∀ (c : Char) (bs : List UInt8), String.utf8EncodeChar c ≠ b :: bs := by
    intro c bs hc
    obtain ⟨ranges, hranges, -⟩ := ranges?_of_encode hc
    rw [h] at hranges
    cases hranges
  refine ⟨List.cons_ne_nil _ _, ?_, .inl rfl, ?_⟩
  · intro c hc
    obtain ⟨bs, hbs, -⟩ := exists_encode_cons hc
    exact hnone c bs hbs
  · rintro x - ⟨c, extra, hc⟩
    exact hnone c _ hc.symm

end Pieces

/-- What is shown is a cut of the bytes into characters and broken pieces. -/
theorem shows_shownFrom (bytes : List UInt8) : Shows bytes (shownFrom bytes) := by
  fun_induction shownFrom bytes with
  | case1 => exact .nil
  | case2 b bs ih =>
    rw [showFront] at ih ⊢
    cases hranges : ranges? b with
    | none =>
      rw [hranges] at ih
      exact .broken (broken_of_none hranges bs) ih
    | some ranges =>
      simp only [hranges] at ih ⊢
      obtain ⟨asked, more, front, rest, rfl, rfl, hlength, hfits, hstop⟩ := exists_fitting ranges bs
      rw [hlength, List.drop_left] at ih
      rw [hlength, List.drop_left, List.take_left, List.length_append, hfits.length_eq]
      cases more with
      | nil =>
        rw [List.append_nil] at hranges
        obtain ⟨c, hc⟩ := exists_encode hranges hfits
        obtain ⟨-, -, -, hcode⟩ := ranges?_of_encode hc
        rw [List.length_nil, Nat.add_zero, if_pos rfl, hcode, Char.ofNat_toNat]
        have hshows := Shows.char c ih
        rwa [hc] at hshows
      | cons range more =>
        rw [if_neg (by simp)]
        exact .broken (broken_of_stop hranges hfits (hstop range rfl)) ih

section Unique

/-- No character is the beginning of another one. -/
theorem encode_append_inj {c d : Char} {bs bs' : List UInt8}
    (h : String.utf8EncodeChar c ++ bs = String.utf8EncodeChar d ++ bs') : c = d ∧ bs = bs' := by
  cases hc : String.utf8EncodeChar c with
  | nil => exact absurd hc String.utf8EncodeChar_ne_nil
  | cons b front =>
    have hfirst : String.utf8EncodeChar d <+: b :: (front ++ bs) :=
      ⟨bs', by rw [← h, hc, List.cons_append]⟩
    obtain ⟨front', hd, -⟩ := exists_encode_cons hfirst
    obtain ⟨ranges, hranges, hfits, hcode⟩ := ranges?_of_encode hc
    obtain ⟨ranges', hranges', hfits', hcode'⟩ := ranges?_of_encode hd
    rw [hranges] at hranges'
    cases hranges'
    rw [hc, hd, List.cons_append, List.cons_append, List.cons.injEq] at h
    obtain ⟨rfl, rfl⟩ := List.append_inj h.2 (hfits.length_eq.symm.trans hfits'.length_eq)
    exact ⟨Char.toNat_inj.mp (hcode.symm.trans hcode'), rfl⟩

/-- A broken piece is not the beginning of a longer one. -/
theorem Broken.eq_nil {piece extra rest : List UInt8} (h : Broken piece (extra ++ rest))
    (h' : Broken (piece ++ extra) rest) : extra = [] := by
  cases extra with
  | nil => rfl
  | cons x extra =>
    rcases h'.begins with hone | ⟨c, hc⟩
    · have hpos := List.length_pos_iff.mpr h.ne_nil
      rw [List.length_append, List.length_cons] at hone
      omega
    · refine absurd ⟨c, List.IsPrefix.trans ?_ hc⟩ (h.longest x ⟨extra ++ rest, rfl⟩)
      exact ⟨extra, by rw [List.append_assoc, List.singleton_append]⟩

/-- There is one way to show bytes. -/
theorem Shows.unique {bytes : List UInt8} {cs cs' : List Char} (h : Shows bytes cs)
    (h' : Shows bytes cs') : cs = cs' := by
  induction h generalizing cs' with
  | nil =>
    rcases (shows_iff _ _).mp h' with ⟨-, rfl⟩ | ⟨c, bs, -, -, hbytes, -⟩ |
      ⟨piece, rest, -, hpiece, -, hbytes, -⟩
    · rfl
    · exact absurd (List.append_eq_nil_iff.mp hbytes.symm).1 String.utf8EncodeChar_ne_nil
    · exact absurd (List.append_eq_nil_iff.mp hbytes.symm).1 hpiece.ne_nil
  | char c h ih =>
    rcases (shows_iff _ _).mp h' with ⟨hbytes, -⟩ | ⟨c', bs', cs', hrest, hbytes, rfl⟩ |
      ⟨piece, rest, -, hpiece, -, hbytes, -⟩
    · exact absurd (List.append_eq_nil_iff.mp hbytes).1 String.utf8EncodeChar_ne_nil
    · obtain ⟨rfl, rfl⟩ := encode_append_inj hbytes
      rw [ih hrest]
    · exact absurd ⟨_, hbytes⟩ (hpiece.no_char c)
  | @broken piece rest cs hpiece h ih =>
    rcases (shows_iff _ _).mp h' with ⟨hbytes, -⟩ | ⟨c', bs', cs', hrest, hbytes, rfl⟩ |
      ⟨piece', rest', cs', hpiece', hrest, hbytes, rfl⟩
    · exact absurd (List.append_eq_nil_iff.mp hbytes).1 hpiece.ne_nil
    · exact absurd ⟨_, hbytes.symm⟩ (hpiece.no_char c')
    · rcases List.append_eq_append_iff.mp hbytes with ⟨extra, rfl, rfl⟩ | ⟨extra, rfl, rfl⟩
      · cases hpiece.eq_nil hpiece'
        rw [ih hrest]
      · cases hpiece'.eq_nil hpiece
        rw [ih hrest]

end Unique

/-- What is printed is the one way to show a text. -/
theorem display_eq_iff {s : SystemText} {shown : String} :
    s.display = shown ↔ Shows s.bytes shown.toList := by
  rw [display, ← String.toList_inj, String.toList_ofList]
  constructor
  · intro heq
    rw [← heq]
    exact shows_shownFrom s.bytes
  · exact (shows_shownFrom s.bytes).unique

/-- The bytes of characters are shown as these. -/
theorem shows_ofString (s : String) : Shows (ofString s).bytes s.toList := by
  rw [ofString]
  induction s.toList with
  | nil => exact .nil
  | cons c cs ih =>
    rw [List.flatMap_cons]
    exact .char c ih

@[simp] theorem display_ofString (s : String) : (ofString s).display = s :=
  display_eq_iff.mpr (shows_ofString s)

/-- Only a line feed is shown as one. -/
theorem Shows.lineFeed_mem {bytes : List UInt8} {cs : List Char} (h : Shows bytes cs)
    (hmem : '\n' ∈ cs) : 0x0A ∈ bytes := by
  induction h with
  | nil => cases hmem
  | char c _ ih =>
    rw [List.mem_append]
    rcases List.mem_cons.mp hmem with rfl | hmem
    · exact .inl (by decide)
    · exact .inr (ih hmem)
  | broken _ _ ih =>
    rw [List.mem_append]
    rcases List.mem_cons.mp hmem with heq | hmem
    · exact absurd heq (by decide)
    · exact .inr (ih hmem)

end PhpTokens.SystemText
