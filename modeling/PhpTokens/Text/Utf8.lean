/-!
Texts measured in bytes. A text is a list of characters, and offsets count the bytes of its UTF-8
form. The functions here go from one measure to the other; a count of bytes that ends inside a
character names no count of characters.
-/
namespace PhpTokens.Utf8

/-- The number of bytes in the UTF-8 form of a text. -/
def size (cs : List Char) : Nat := cs.foldr (fun c bytes => c.utf8Size + bytes) 0

/-- Adds to `passed` the number of characters that exactly fill the first `bytes` bytes. -/
def charsInFrom? (passed bytes : Nat) : List Char → Option Nat
  | [] => if bytes = 0 then some passed else none
  | c :: cs =>
    if bytes = 0 then some passed
    else if c.utf8Size ≤ bytes then charsInFrom? (passed + 1) (bytes - c.utf8Size) cs
    else none

/-- The number of characters that exactly fill the first `bytes` bytes, if they end on a
character's edge and inside the text. -/
def charsIn? (bytes : Nat) (cs : List Char) : Option Nat := charsInFrom? 0 bytes cs

/-- Adds to `passed` the index of the first byte equal to `b`. -/
def indexOfFrom? (b : UInt8) (passed : Nat) : List Char → Option Nat
  | [] => none
  | c :: cs =>
    match (String.utf8EncodeChar c).findIdx? (· == b) with
    | some i => some (passed + i)
    | none => indexOfFrom? b (passed + c.utf8Size) cs

/-- The index of the first byte equal to `b` in the UTF-8 form of a text. -/
def indexOf? (b : UInt8) (cs : List Char) : Option Nat := indexOfFrom? b 0 cs

@[simp] theorem size_nil : size [] = 0 := rfl

@[simp] theorem size_cons (c : Char) (cs : List Char) : size (c :: cs) = c.utf8Size + size cs := rfl

@[simp] theorem size_append (cs ds : List Char) : size (cs ++ ds) = size cs + size ds := by
  induction cs with
  | nil => simp
  | cons c cs ih => rw [List.cons_append, size_cons, size_cons, ih, Nat.add_assoc]

end PhpTokens.Utf8
