import Metamodel.Decimal.Binary64

/-!
# Shortest digits

The fewest decimal digits that read back as a given magnitude. A decimal reads back when it lies
in the interval of reals that round to the magnitude, whose ends belong to it exactly when the
significand is even. For one to seventeen digits the two neighbours of the magnitude on the grid
of decimals of that length are tried: the shortest grid with a hit wins, of two hits the nearer,
and of two equally near the one with the even last digit.

All comparisons are of natural numbers, in quarters of the unit `2 ^ -1074`.
-/

namespace Metamodel.Decimal

/-- The decimal `coefficient * 10 ^ exponent`. -/
structure Digits where
  coefficient : Nat
  exponent : Int
  deriving DecidableEq

/-- The number of decimal digits of a positive number; none for zero. -/
def digitCount (n : Nat) : Nat :=
  if n == 0 then 0 else (Nat.toDigits 10 n).length

namespace Digits

/-- The same decimal with the zeros at the end of its coefficient moved to the exponent. -/
def strip (d : Digits) : Digits :=
  if h : d.coefficient ≠ 0 ∧ d.coefficient % 10 = 0 then
    strip ⟨d.coefficient / 10, d.exponent + 1⟩
  else d
  termination_by d.coefficient
  decreasing_by
    omega

/-- The numerator and denominator of the decimal. -/
def ratio (d : Digits) : Nat × Nat :=
  if d.exponent < 0 then (d.coefficient, tenTo d.exponent.natAbs)
  else (d.coefficient * tenTo d.exponent.natAbs, 1)

end Digits

namespace Magnitude

/-- The magnitude in quarters of a unit. -/
def quarters (m : Magnitude) : Nat :=
  4 * m.units

/-- The number of quarter units in one. -/
def quartersPerOne : Nat :=
  4 * unitsPerOne

/-- The lower end of the interval that rounds to the magnitude, in quarters of a unit. The gap
below a power of two is half the gap above it. -/
def lowerEnd (m : Magnitude) : Nat :=
  m.quarters - ((if m.significand == fullSignificand && m.scale != 0 then 1 else 2) <<< m.scale)

/-- The upper end of the interval that rounds to the magnitude, in quarters of a unit. -/
def upperEnd (m : Magnitude) : Nat :=
  m.quarters + (2 <<< m.scale)

/-- Whether a decimal lies in the interval that rounds to the magnitude. -/
def holds (m : Magnitude) (d : Digits) : Bool :=
  let (num, den) := d.ratio
  let n := num * quartersPerOne
  if m.significand % 2 == 0 then m.lowerEnd * den ≤ n && n ≤ m.upperEnd * den
  else m.lowerEnd * den < n && n < m.upperEnd * den

/-- The distance of a decimal from the magnitude, as a numerator over the decimal's denominator
times the quarters in one. -/
def distance (m : Magnitude) (d : Digits) : Nat :=
  let (num, den) := d.ratio
  (num * quartersPerOne - m.quarters * den) + (m.quarters * den - num * quartersPerOne)

/-- The exponent `e` with `10 ^ (e - 1) ≤ m < 10 ^ e`. -/
def decimalExponent (m : Magnitude) : Int :=
  if quartersPerOne ≤ m.quarters then digitCount (m.quarters / quartersPerOne)
  else 1 - digitCount ((quartersPerOne + m.quarters - 1) / m.quarters - 1)

/-- The largest decimal with the given exponent that is not above the magnitude. -/
def below (m : Magnitude) (exponent : Int) : Digits :=
  if exponent < 0 then ⟨m.quarters * tenTo exponent.natAbs / quartersPerOne, exponent⟩
  else ⟨m.quarters / (quartersPerOne * tenTo exponent.natAbs), exponent⟩

/-- The decimal of `n` digits that reads back as the magnitude, when there is one. -/
def withDigits? (m : Magnitude) (n : Nat) : Option Digits :=
  let low := m.below (m.decimalExponent - n)
  let high := { low with coefficient := low.coefficient + 1 }
  match m.holds low, m.holds high with
  | true, true =>
    let a := m.distance low
    let b := m.distance high
    if a < b || (a == b && low.coefficient % 2 == 0) then some low else some high
  | true, false => some low
  | false, true => some high
  | false, false => none

/-- The shortest decimal that reads back as the magnitude, without zeros at its end. -/
def shortest (m : Magnitude) : Digits :=
  let found := (List.range 17).findSome? fun k => m.withDigits? (k + 1)
  (found.getD (m.below (m.decimalExponent - 17))).strip

end Magnitude

end Metamodel.Decimal
