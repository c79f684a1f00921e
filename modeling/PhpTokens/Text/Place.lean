/-!
Pieces of a text. An extent is a range of bytes, as programs need it; a place is a line, a column
and a length in characters, as people read it. Both are made of 64-bit words, and arithmetic that
leaves their range is refused, not wrapped.
-/
namespace PhpTokens

/-- Arithmetic that has no result among the 64-bit words. -/
inductive WordFault where
  | sum
  | difference
  deriving DecidableEq, Repr

def WordFault.message : WordFault → String
  | .sum => "attempt to add with overflow"
  | .difference => "attempt to subtract with overflow"

namespace Word

/-- One more than the greatest word. -/
def bound : Nat := 1 <<< 64

def add (a b : Nat) : Except WordFault Nat :=
  if a + b < bound then .ok (a + b) else .error .sum

def sub (a b : Nat) : Except WordFault Nat :=
  if b ≤ a then .ok (a - b) else .error .difference

end Word

/-- The bytes from `start` up to and without `stop`. -/
structure Extent where
  start : Nat := 0
  stop : Nat := 0
  deriving DecidableEq, Repr, Inhabited

namespace Extent

/-- The number of bytes, which an extent that runs backwards does not have. -/
def length (s : Extent) : Except WordFault Nat := Word.sub s.stop s.start

def isEmpty (s : Extent) : Bool := s.start == s.stop

end Extent

/-- A line and a column, both counted from one, and a number of characters. -/
structure Place where
  line : Nat
  column : Nat
  length : Nat
  deriving DecidableEq, Repr, Inhabited

namespace Place

def toText (p : Place) : String :=
  toString p.line ++ ":" ++ toString p.column ++ "+" ++ toString p.length

end Place
end PhpTokens
