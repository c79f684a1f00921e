/-!
Text of the system. Names of files, paths and arguments are rows of bytes. Most are the UTF-8 form
of characters, but nothing makes them so. When such a text is printed, a piece of it that is no
character is replaced by one mark. The piece reaches as far as a character could still go on with
it, and is one byte if no character begins there.
-/
namespace PhpTokens

structure SystemText where
  bytes : List UInt8
  deriving DecidableEq, Repr

namespace SystemText

def ofString (s : String) : SystemText := ⟨s.toList.flatMap String.utf8EncodeChar⟩

instance : Append SystemText := ⟨fun s t => ⟨s.bytes ++ t.bytes⟩⟩

@[simp] theorem bytes_append (s t : SystemText) : (s ++ t).bytes = s.bytes ++ t.bytes := rfl

def size (s : SystemText) : Nat := s.bytes.length

/-- The order of texts, in which the first byte that differs decides. -/
def precedes (s t : SystemText) : Bool := List.lex s.bytes t.bytes (· < ·)

/-- The least and the greatest byte at most places behind the first one of a character. -/
def continuation : UInt8 × UInt8 := (0x80, 0xBF)

/-- The ranges of the bytes that complete a character, if one begins with this byte. -/
def ranges? (b : UInt8) : Option (List (UInt8 × UInt8)) :=
  if b ≤ 0x7F then some []
  else if b ≤ 0xC1 then none
  else if b ≤ 0xDF then some [continuation]
  else if b = 0xE0 then some [(0xA0, 0xBF), continuation]
  else if b = 0xED then some [(0x80, 0x9F), continuation]
  else if b ≤ 0xEF then some [continuation, continuation]
  else if b = 0xF0 then some [(0x90, 0xBF), continuation, continuation]
  else if b ≤ 0xF3 then some [continuation, continuation, continuation]
  else if b = 0xF4 then some [(0x80, 0x8F), continuation, continuation]
  else none

/-- How many bytes at the front lie in their ranges. -/
def fitting : List (UInt8 × UInt8) → List UInt8 → Nat
  | (low, high) :: ranges, b :: bs => if low ≤ b ∧ b ≤ high then fitting ranges bs + 1 else 0
  | _, _ => 0

/-- The code point that the bytes of a character stand for. -/
def codePoint : List UInt8 → Nat
  | [a] => a.toNat
  | [a, b] => a.toNat % 32 * 64 + b.toNat % 64
  | [a, b, c] => a.toNat % 16 * 4096 + b.toNat % 64 * 64 + c.toNat % 64
  | [a, b, c, d] =>
    a.toNat % 8 * 262144 + b.toNat % 64 * 4096 + c.toNat % 64 * 64 + d.toNat % 64
  | _ => 0

/-- The mark for a piece that is no character. -/
def replacement : Char := '\ufffd'

/-- What is shown first, and how many bytes behind the first one it stands for. -/
def showFront (b : UInt8) (bs : List UInt8) : Char × Nat :=
  match ranges? b with
  | none => (replacement, 0)
  | some ranges =>
    let n := fitting ranges bs
    (if n = ranges.length then Char.ofNat (codePoint (b :: bs.take n)) else replacement, n)

/-- The characters that are shown for bytes. -/
def shownFrom (bytes : List UInt8) : List Char :=
  match bytes with
  | [] => []
  | b :: bs => (showFront b bs).1 :: shownFrom (bs.drop (showFront b bs).2)
termination_by bytes.length
decreasing_by
  rw [List.length_drop, List.length_cons]
  exact Nat.lt_succ_of_le (Nat.sub_le _ _)

/-- The text as it is printed. -/
def display (s : SystemText) : String := String.ofList (shownFrom s.bytes)

end SystemText
end PhpTokens
