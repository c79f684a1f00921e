import PhpTokens.JsonText.StringText

/-! Runs of characters, which end before a character of another sort or with the text. A number that
is written in digits is such a run, and is read back from it. -/

namespace PhpTokens

/-- The character that comes next, if there is one, ends a run of characters that satisfy `p`. -/
def Stops (p : Char → Bool) (next : Option Char) : Prop := ∀ c, next = some c → p c = false

theorem stops_dropWhile (p : Char → Bool) (text : List Char) :
    Stops p (text.dropWhile p).head? := by
  intro c hc
  have hhead := List.head?_dropWhile_not p text
  rw [hc] at hhead
  simpa using hhead

theorem stops_cons {p : Char → Bool} {c : Char} (h : p c = false) (rest : List Char) :
    Stops p (c :: rest).head? := by
  rintro _ ⟨⟩
  exact h

section

variable {p : Char → Bool} {run after : List Char} (hrun : ∀ c ∈ run, p c = true)
  (hstops : Stops p after.head?)
include hrun hstops

theorem takeWhile_append_of_stops : (run ++ after).takeWhile p = run := by
  rw [List.takeWhile_append_of_pos hrun]
  cases after with
  | nil => rw [List.takeWhile_nil, List.append_nil]
  | cons c after => rw [List.takeWhile_cons_of_neg (by simp [hstops c rfl]), List.append_nil]

theorem dropWhile_append_of_stops : (run ++ after).dropWhile p = after := by
  rw [List.dropWhile_append_of_pos hrun]
  cases after with
  | nil => rfl
  | cons c after => rw [List.dropWhile_cons_of_neg (by simp [hstops c rfl])]

end

/-- The number whose decimal digits a text begins with, and what follows them. -/
def readNatural? (text : List Char) : Option (Nat × List Char) :=
  let digits := text.takeWhile Char.isDigit
  if digits.isEmpty then none
  else some (Nat.ofDigitChars 10 digits 0, text.dropWhile Char.isDigit)

theorem isDigit_of_mem_decimal {n : Nat} {c : Char} (h : c ∈ (toString n).toList) :
    c.isDigit = true := by
  rw [Nat.toString_eq_ofList_toDigits, String.toList_ofList] at h
  exact Nat.isDigit_of_mem_toDigits (by decide) (by decide) h

theorem digits_no_lineFeed (n : Nat) : '\n' ∉ Nat.toDigits 10 n := fun h => by
  rw [← Nat.toList_repr] at h
  cases isDigit_of_mem_decimal h

theorem decimal_ne_nil (n : Nat) : (toString n).toList ≠ [] := by
  rw [Nat.toString_eq_ofList_toDigits, String.toList_ofList]
  exact Nat.toDigits_ne_nil

theorem readNatural?_decimal (n : Nat) {after : List Char} (h : Stops Char.isDigit after.head?) :
    readNatural? ((toString n).toList ++ after) = some (n, after) := by
  have hdigits : ∀ c ∈ (toString n).toList, c.isDigit = true := fun _ => isDigit_of_mem_decimal
  have hempty : (toString n).toList.isEmpty = false :=
    List.isEmpty_eq_false_iff.mpr (decimal_ne_nil n)
  rw [readNatural?, takeWhile_append_of_stops hdigits h, dropWhile_append_of_stops hdigits h,
    hempty, if_neg Bool.false_ne_true, Nat.toString_eq_ofList_toDigits, String.toList_ofList,
    Nat.ofDigitChars_ten_toDigits]

/-- The number with these hexadecimal digits, behind those that make `value`. -/
def ofHexDigits (value : Nat) (digits : List Nat) : Nat :=
  digits.foldl (fun value digit => 16 * value + digit) value

theorem exists_hexDigits (n : Nat) :
    ∃ digits : List Nat, (∀ d ∈ digits, d < 16) ∧
      Nat.toDigits 16 n = digits.map Nat.digitChar ∧ ofHexDigits 0 digits = n := by
  induction n using Nat.strongRecOn with
  | ind n ih =>
    rw [Nat.toDigits_eq_if (by decide)]
    split
    · next hlt => exact ⟨[n], by simpa using hlt, rfl, by simp [ofHexDigits]⟩
    · next hle =>
      obtain ⟨digits, hlt, hdigits, hvalue⟩ := ih (n / 16) (by omega)
      refine ⟨digits ++ [n % 16], ?_, by rw [hdigits, List.map_append]; rfl, ?_⟩
      · intro d hd
        rcases List.mem_append.mp hd with hd | hd
        · exact hlt d hd
        · rw [List.mem_singleton.mp hd]
          exact Nat.mod_lt n (by decide)
      · rw [ofHexDigits] at hvalue
        rw [ofHexDigits, List.foldl_append, hvalue]
        exact Nat.div_add_mod n 16

theorem hexValue?_digitChar : ∀ n < 16, JsonText.hexValue? n.digitChar = some n := by decide

end PhpTokens
