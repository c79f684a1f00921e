/-!
The shortest decimal of a floating-point number. A float stands for every real number that is
rounded to it, an interval around its own value that includes its ends if the mantissa is even.
Of the decimals in that interval the shortest one is taken: the coarsest grid of decimals with a
point in the interval, and on that grid the point nearest to the value. All of it is arithmetic
on natural numbers.
-/
namespace PhpTokens

/-- The decimal `digits * 10 ^ exponent`. -/
structure Decimal where
  digits : Nat
  exponent : Int
  deriving DecidableEq, Repr

namespace Decimal

/-- The value `middle / unit`, in the middle of the reals from `low / unit` to `high / unit` that
are rounded to it. -/
structure Interval where
  low : Nat
  middle : Nat
  high : Nat
  unit : Nat
  /-- The ends are rounded to the value as well. -/
  closed : Bool
  deriving Repr

namespace Interval

/-- The interval of a positive finite float. The mantissa is scaled by four, so that the ends,
half a step away or a quarter below a power of two, are whole. -/
def ofBits (bits : UInt64) : Interval :=
  let field := (bits >>> 52).toNat % 2048
  let fraction := bits.toNat % (1 <<< 52)
  let mantissa := if field = 0 then fraction else fraction + (1 <<< 52)
  let exponent : Int := (if field = 0 then 1 else field) - 1077
  let below := if fraction = 0 ∧ 1 < field then 1 else 2
  let scale := 1 <<< exponent.toNat
  { low := (4 * mantissa - below) * scale
    middle := 4 * mantissa * scale
    high := (4 * mantissa + 2) * scale
    unit := 1 <<< (-exponent).toNat
    closed := mantissa % 2 == 0 }

/-- The number of digits before the decimal point; for a value below one, minus the number of
zeros behind it. -/
def pointPlace (v : Interval) : Int :=
  if v.unit ≤ v.middle then (Nat.toDigits 10 (v.middle / v.unit)).length
  else
    match (List.range 400).find? fun zeros => v.unit ≤ v.middle * Nat.pow 10 (zeros + 1) with
    | some zeros => -zeros
    | none => 0

/-- A point of the grid of step `10 ^ step` lies in the interval. -/
def covers (v : Interval) (digits : Nat) (step : Int) : Bool :=
  let point := digits * v.unit * Nat.pow 10 step.toNat
  let up := Nat.pow 10 (-step).toNat
  if v.closed then v.low * up ≤ point && point ≤ v.high * up
  else v.low * up < point && point < v.high * up

/-- The nearest point to the value on a grid, if one of its two neighbours there lies in the
interval. -/
def onGrid? (v : Interval) (step : Int) : Option Decimal :=
  let value := v.middle * Nat.pow 10 (-step).toNat
  let unit := v.unit * Nat.pow 10 step.toNat
  let under := value / unit
  let nearUnder := 2 * (value % unit) < unit ∨ (2 * (value % unit) = unit ∧ under % 2 = 0)
  match v.covers under step, v.covers (under + 1) step with
  | true, true => some ⟨if nearUnder then under else under + 1, step⟩
  | true, false => some ⟨under, step⟩
  | false, true => some ⟨under + 1, step⟩
  | false, false => none

end Interval

/-- Seventeen digits tell any two floats apart. -/
def maxDigits : Nat := 17

/-- Moves the zeros at the end of the digits into the exponent. -/
def dropZeros : (rounds : Nat) → Decimal → Decimal
  | 0, d => d
  | rounds + 1, d =>
    if d.digits % 10 = 0 then dropZeros rounds ⟨d.digits / 10, d.exponent + 1⟩ else d

/-- The shortest decimal that is rounded to a positive finite float. -/
def shortest (bits : UInt64) : Decimal :=
  let v := Interval.ofBits bits
  let place := v.pointPlace
  let found := (List.range maxDigits).findSome? fun (n : Nat) => v.onGrid? (place - (n + 1))
  dropZeros maxDigits (found.getD ⟨0, 0⟩)

/-- How decimals are laid out in messages. -/
structure Layout where
  /-- The greatest number of digits before the point that is written without an exponent. -/
  maxPlace : Int
  /-- One less than the least place of the point that is written without an exponent. -/
  minPlace : Int
  /-- The sign of an exponent that is not negative. -/
  plus : String

/-- Zeros are written out up to the sixteenth digit before the point and the fourth zero behind
it; beyond that an exponent with its sign follows the digits. -/
def Layout.message : Layout := ⟨16, -5, "+"⟩

namespace Layout

def zeros (n : Int) : String := String.ofList (List.replicate n.toNat '0')

def write (layout : Layout) (d : Decimal) : String :=
  let digits := Nat.toDigits 10 d.digits
  let all := String.ofList digits
  let place := digits.length + d.exponent
  if 0 ≤ d.exponent ∧ place ≤ layout.maxPlace then all ++ zeros d.exponent ++ ".0"
  else if 0 < place ∧ place ≤ layout.maxPlace then
    String.ofList (digits.take place.toNat) ++ "." ++ String.ofList (digits.drop place.toNat)
  else if layout.minPlace < place ∧ place ≤ 0 then "0." ++ zeros (-place) ++ all
  else
    let fraction := String.ofList (digits.drop 1)
    let point := if fraction.isEmpty then "" else "."
    let exponent := place - 1
    let sign := if exponent < 0 then "-" else layout.plus
    String.ofList (digits.take 1) ++ point ++ fraction ++ "e" ++ sign ++
      toString exponent.natAbs

/-- A finite float with its sign; zero has no digits to choose. -/
def writeFloat (layout : Layout) (x : Float) : String :=
  let bits := x.toBits
  let sign := if bits >>> 63 = 1 then "-" else ""
  let magnitude := bits % (1 <<< 63)
  if magnitude = 0 then sign ++ "0.0" else sign ++ layout.write (shortest magnitude)

end Layout
end Decimal
end PhpTokens
