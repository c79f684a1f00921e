import PhpTokens.Unicode.DefaultIgnorable
import PhpTokens.Unicode.GraphemeExtend
import PhpTokens.Unicode.Printable

/-!
Quoted text: a text or a single character between marks, written so that every character of it
can be seen. The mark itself, the backslash and the common controls have short escapes; a
character that shows nothing of its own, or only alters the one before it, is written by its
code point; all else stands as it is. Text is quoted with `"` and leaves `'` alone, a character
is quoted with `'` and leaves `"` alone.
-/
namespace PhpTokens.Quoted

/-- The letter that stands for a control character after a backslash. -/
def letter? (c : Char) : Option Char :=
  if c = '\x00' then some '0'
  else if c = '\t' then some 't'
  else if c = '\r' then some 'r'
  else if c = '\n' then some 'n'
  else none

/-- The halfwidth sound marks. They extend the character before them, but fill a cell of their
own and so can be seen. -/
def isSoundMark (c : Char) : Bool := c == '\uff9e' || c == '\uff9f'

/-- A character that only alters the one before it. -/
def isExtender (c : Char) : Bool := CodeSet.graphemeExtend.contains c && !isSoundMark c

/-- A character that can be shown alone and as it is. -/
def isPlain (c : Char) : Bool :=
  CodeSet.printable.contains c && !CodeSet.defaultIgnorable.contains c && !isExtender c

/-- The code point of a character in lower-case hexadecimal digits, without leading zeros. -/
def codePoint (c : Char) : List Char :=
  ['\\', 'u', '\x7b'] ++ Nat.toDigits 16 c.toNat ++ ['\x7d']

/-- One character as it stands between two marks. -/
def encodeChar (mark c : Char) : List Char :=
  match letter? c with
  | some l => ['\\', l]
  | none =>
    if c = mark ∨ c = '\\' then ['\\', c]
    else if isPlain c then [c]
    else codePoint c

/-- A text as it stands between two marks. -/
def encode (mark : Char) (cs : List Char) : List Char := cs.flatMap (encodeChar mark)

/-- A text between double quotes. -/
def text (s : String) : String := String.ofList (['"'] ++ encode '"' s.toList ++ ['"'])

/-- A character between single quotes. -/
def char (c : Char) : String := String.ofList (['\''] ++ encodeChar '\'' c ++ ['\''])

end PhpTokens.Quoted
