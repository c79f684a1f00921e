import PhpTokens.Decimal.Shortest
import PhpTokens.JsonText.Skip

/-!
Reading a JSON number for its value. An integer that fits a 64-bit word keeps its value; any other
number becomes a float. The digits that fit a word make the float's significand, the digits behind
them only count, and the result is the significand scaled by a power of ten, which is quick but not
always the float nearest to the number written.
-/
namespace PhpTokens.JsonText

inductive Number where
  | natural (n : Nat)
  /-- The negative of a number above zero. -/
  | negative (n : Nat)
  | float (x : Float)

namespace Number

/-- How a number is called when something else was expected. -/
def describe : Number → String
  | .natural n => "integer " ++ Cause.mark (toString n)
  | .negative n => "integer " ++ Cause.mark ("-" ++ toString n)
  | .float x => "floating point " ++ Cause.mark (Decimal.Layout.message.writeFloat x)

end Number

def digitValue (c : Char) : Nat := c.toNat - '0'.toNat

/-- Appends digits to a significand as long as it fits a word, and counts them. -/
def appendDigits (significand count : Nat) : List Char → Nat × Nat
  | [] => (significand, count)
  | c :: cs =>
    let longer := significand * 10 + digitValue c
    if longer < 1 <<< 64 then appendDigits longer (count + 1) cs else (significand, count)

/-- The significand times a power of ten, if that is finite. Powers beyond the range of floats
are reached in steps; three of them bring any significand down to zero. -/
def scale? : (steps : Nat) → Float → (exponent : Int) → Option Float
  | 0, x, _ => some x
  | steps + 1, x, exponent =>
    if exponent.natAbs ≤ 308 then
      let power := Float.ofScientific 1 false exponent.natAbs
      let y := if 0 ≤ exponent then x * power else x / power
      if y.isInf then none else some y
    else if x == 0 then some x
    else if 0 ≤ exponent then none
    else scale? steps (x / Float.ofScientific 1 false 308) (exponent + 308)

/-- The float of a significand and an exponent, when `rest` follows the number. -/
def toFloat (isNegative : Bool) (significand : Nat) (exponent : Int) (rest : List Char) :
    Except Stop (Number × List Char) :=
  match scale? 4 significand.toUInt64.toFloat exponent with
  | some x => .ok (.float (if isNegative then -x else x), rest)
  | none => .error (.before .numberOutOfRange rest)

/-- The greatest exponent that is computed with. -/
def maxExponent : Nat := (1 <<< 31) - 1

/-- The value of the digits at the front of a text, up to the first digit that lifts it above the
greatest exponent. -/
def readExponentDigits (value : Nat) : List Char → Nat × List Char
  | [] => (value, [])
  | c :: cs =>
    if isDigit c ∧ value ≤ maxExponent then readExponentDigits (value * 10 + digitValue c) cs
    else (value, c :: cs)

/-- The exponent of a number behind its letter. -/
def readExponent (isNegative : Bool) (significand : Nat) (exponent : Int) (cs : List Char) :
    Except Stop (Number × List Char) :=
  match dropSign cs with
  | [] => .error (.before .endInValue [])
  | c :: rest =>
    if isDigit c then
      let isDown := cs.head? == some '-'
      let (value, rest) := readExponentDigits 0 (c :: rest)
      if value ≤ maxExponent then
        toFloat isNegative significand (if isDown then exponent - value else exponent + value) rest
      else if significand ≠ 0 ∧ !isDown then .error (.before .numberOutOfRange rest)
      else .ok (.float (if isNegative then -0.0 else 0.0), skipDigits rest)
    else .error (.about .invalidNumber (c :: rest))

/-- What follows the digits of a number that is a float. -/
def readExponentPart (isNegative : Bool) (significand : Nat) (exponent : Int) (cs : List Char) :
    Except Stop (Number × List Char) :=
  match cs with
  | [] => toFloat isNegative significand exponent []
  | c :: rest =>
    if c = 'e' ∨ c = 'E' then readExponent isNegative significand exponent rest
    else toFloat isNegative significand exponent cs

/-- The fraction of a number behind its point. -/
def readFraction (isNegative : Bool) (significand : Nat) (exponent : Int) (cs : List Char) :
    Except Stop (Number × List Char) :=
  let digits := cs.takeWhile isDigit
  if digits.isEmpty then
    .error (.about (if cs.isEmpty then .endInValue else .invalidNumber) cs)
  else
    let (significand, count) := appendDigits significand 0 digits
    readExponentPart isNegative significand (exponent - count) (skipDigits cs)

/-- An integer that no fraction and no exponent follows. Zero has no negative among the integers,
and the least of them is minus two to the power 63. -/
def ofInteger (isNegative : Bool) (n : Nat) : Number :=
  if !isNegative then .natural n
  else if n ≠ 0 ∧ n ≤ 1 <<< 63 then .negative n
  else .float (-n.toUInt64.toFloat)

/-- A number behind its minus sign. -/
def readNumber (isNegative : Bool) (cs : List Char) : Except Stop (Number × List Char) :=
  match cs with
  | [] => .error (.before .endInValue [])
  | c :: rest =>
    let digits := cs.takeWhile isDigit
    if digits.isEmpty then .error (.about .invalidNumber cs)
    else if c = '0' ∧ 1 < digits.length then .error (.about .invalidNumber rest)
    else
      let (significand, count) := appendDigits 0 0 digits
      let exponent := digits.length - count
      match skipDigits cs with
      | '.' :: rest => readFraction isNegative significand exponent rest
      | rest =>
        if exponent = 0 ∧ rest.head? ≠ some 'e' ∧ rest.head? ≠ some 'E' then
          .ok (ofInteger isNegative significand, rest)
        else readExponentPart isNegative significand exponent rest

end PhpTokens.JsonText
