/-!
Sets of code points. A property of characters splits the code points into runs that have it and
runs that lack it, so the set is written as the increasing list of the points where a run begins:
the first point begins a run inside the set, the next one outside it, and so on. Membership is
then a parity, and the parity is found by halving.
-/
namespace PhpTokens

/-- A set of code points, given by the increasing points at which membership changes. -/
structure CodeSet where
  bounds : Array Nat

namespace CodeSet

/-- Counts the bounds at or below `c`, of which the first `lo` are known to be and those from
`hi` on are known not to be. Each round halves the range between, so `rounds` is its logarithm. -/
def rankBetween (bounds : Array Nat) (c : Nat) : (rounds lo hi : Nat) → Nat
  | 0, lo, _ => lo
  | rounds + 1, lo, hi =>
    if lo < hi then
      let mid := (lo + hi) / 2
      if bounds.getD mid 0 ≤ c then rankBetween bounds c rounds (mid + 1) hi
      else rankBetween bounds c rounds lo mid
    else lo

/-- The number of bounds at or below `c`. -/
def rank (s : CodeSet) (c : Nat) : Nat :=
  rankBetween s.bounds c (s.bounds.size.log2 + 1) 0 s.bounds.size

/-- A code point is in the set if an odd number of runs has begun at or before it. The tables are
long, so that nothing unfolds a membership unasked. -/
@[irreducible] def contains (s : CodeSet) (c : Char) : Bool :=
  s.rank c.toNat % 2 == 1

end CodeSet
end PhpTokens
