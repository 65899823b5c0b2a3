/-!
# Binary64 numbers

The 64-bit binary floating-point numbers as exact values. A finite number is a sign and a
`Magnitude`, an integer significand below `2 ^ 53` times a power of two, in its one canonical form;
so two numbers are equal as terms exactly when they are the same number, zeros of opposite sign
being different and the one `nan` being equal to itself.

Rounding is to the nearest number, ties to the even significand (`Magnitude.round?`). All
arithmetic is on natural numbers, in units of `2 ^ -1074`, the distance of the smallest numbers.
-/

namespace Metamodel.Decimal

/-- The power of ten. -/
def tenTo (n : Nat) : Nat := Nat.pow 10 n

/-- The least significand that has all 53 bits, `2 ^ 52`. -/
def fullSignificand : Nat := 0x10000000000000

/-- The number behind the last significand, `2 ^ 53`. -/
def significandEnd : Nat := 0x20000000000000

/-- A finite magnitude `significand * 2 ^ scale`, in units of `2 ^ -1074`. -/
structure Magnitude where
  significand : Nat
  scale : Nat
  significand_lt : significand < significandEnd
  scale_le : scale ≤ 2045
  canonical : scale = 0 ∨ fullSignificand ≤ significand
  deriving DecidableEq

namespace Magnitude

/-- The number of units of `2 ^ -1074` in one. -/
def unitsPerOne : Nat := 1 <<< 1074

/-- The magnitude in units of `2 ^ -1074`. -/
def units (m : Magnitude) : Nat :=
  m.significand <<< m.scale

/-- The magnitude with the given significand and scale, when they are in canonical form. -/
def ofParts? (significand scale : Nat) : Option Magnitude :=
  if h : significand < significandEnd ∧ scale ≤ 2045 ∧
      (scale = 0 ∨ fullSignificand ≤ significand) then
    some ⟨significand, scale, h.1, h.2.1, h.2.2⟩
  else none

def zero : Magnitude :=
  ⟨0, 0, by decide, by decide, .inl rfl⟩

/-- The quotient rounded to the nearest integer, a half to the even one. -/
def divideToEven (n d : Nat) : Nat :=
  let q := n / d
  let r := n % d
  if d < 2 * r || (2 * r == d && q % 2 == 1) then q + 1 else q

/-- The magnitude nearest to `num / den`, or nothing when that is beyond the largest one. -/
def round? (num den : Nat) : Option Magnitude :=
  let n := num * unitsPerOne
  let scale := (n / den).log2 - 52
  let significand := divideToEven n (den <<< scale)
  if significand == significandEnd then ofParts? fullSignificand (scale + 1)
  else ofParts? significand scale

/-- Whether the magnitude is a whole number. -/
def isWhole (m : Magnitude) : Bool :=
  m.units % unitsPerOne == 0

/-- The magnitude without its fraction. -/
def floor (m : Magnitude) : Nat :=
  m.units / unitsPerOne

theorem ofParts?_self (m : Magnitude) : ofParts? m.significand m.scale = some m :=
  dif_pos ⟨m.significand_lt, m.scale_le, m.canonical⟩

end Magnitude

/-- A 64-bit binary floating-point number. -/
inductive Binary64 where
  | nan
  | infinite (negative : Bool)
  | finite (negative : Bool) (magnitude : Magnitude)
  deriving DecidableEq

namespace Binary64

instance : Inhabited Binary64 := ⟨.nan⟩

/-- The number nearest to a signed quotient. -/
def ofRatio (negative : Bool) (num den : Nat) : Binary64 :=
  match Magnitude.round? num den with
  | some m => .finite negative m
  | none => .infinite negative

def ofNat (n : Nat) : Binary64 :=
  ofRatio false n 1

def ofInt (n : Int) : Binary64 :=
  ofRatio (decide (n < 0)) n.natAbs 1

/-- The number `digits * 10 ^ exponent`; exponents far outside the range are settled unread. -/
def ofDecimal (negative : Bool) (digits : Nat) (exponent : Int) : Binary64 :=
  let top := exponent + (Nat.toDigits 10 digits).length
  if digits == 0 || top < -400 then .finite negative .zero
  else if 400 < top then .infinite negative
  else if exponent < 0 then ofRatio negative digits (tenTo exponent.natAbs)
  else ofRatio negative (digits * tenTo exponent.natAbs) 1

/-- The value of a finite number in units of `2 ^ -1074`; zero otherwise. -/
def signedUnits : Binary64 → Int
  | .finite false m => m.units
  | .finite true m => -m.units
  | _ => 0

/-- Whether the number is a whole one; the infinities count as whole. -/
def isWhole : Binary64 → Bool
  | .nan => false
  | .infinite _ => true
  | .finite _ m => m.isWhole

/-- The value of a finite whole number. -/
def toInt? : Binary64 → Option Int
  | .finite negative m =>
    if m.isWhole then some (if negative then -m.floor else m.floor) else none
  | _ => none

/-- The value of a finite number without its fraction; zero otherwise. -/
def truncate : Binary64 → Int
  | .finite negative m => if negative then -m.floor else m.floor
  | _ => 0

/-- Whether the number is at least `n`. -/
def atLeast (x : Binary64) (n : Nat) : Bool :=
  match x with
  | .nan => false
  | .infinite negative => !negative
  | .finite .. => (n * Magnitude.unitsPerOne : Int) ≤ x.signedUnits

/-- The sum, rounded to the nearest number. -/
def add : Binary64 → Binary64 → Binary64
  | .nan, _ => .nan
  | _, .nan => .nan
  | .infinite a, .infinite b => if a == b then .infinite a else .nan
  | .infinite a, .finite .. => .infinite a
  | .finite .., .infinite b => .infinite b
  | .finite s a, .finite t b =>
    let sum := (finite s a).signedUnits + (finite t b).signedUnits
    let negative := if sum == 0 then s && t else decide (sum < 0)
    ofRatio negative sum.natAbs Magnitude.unitsPerOne

instance : Add Binary64 := ⟨add⟩

/-- The number with the opposite sign. -/
def negate : Binary64 → Binary64
  | .nan => .nan
  | .infinite s => .infinite !s
  | .finite s m => .finite (!s) m

end Binary64

/-- The remainder of `n` in the signed 32-bit range. -/
def wrap32 (n : Int) : Int :=
  n.bmod 0x100000000

end Metamodel.Decimal
