import Metamodel.Decimal.Shortest

/-!
# Decimal texts of numbers

Numbers are written with their shortest digits: in positional notation when the decimal point
stands at most 21 digits behind the first digit and at most six zeros before it, and otherwise in
scientific notation with a signed exponent. Zeros of both signs are written `0`.

A number is read from digits, a fraction and an exponent (`Numeral.read?`), rounding to nearest.
-/

namespace Metamodel.Decimal

/-- Positional notation ends where the point would stand more than this many digits to the
right. -/
def maxPoint : Int := 21

/-- Positional notation ends where this many zeros would follow the point. -/
def minPoint : Int := -6

/-- The text of a positive decimal. -/
def Digits.text (d : Digits) : List Char :=
  let ds := Nat.toDigits 10 d.coefficient
  let k := ds.length
  let point := d.exponent + k
  if k ≤ point ∧ point ≤ maxPoint then ds ++ List.replicate (point - k).toNat '0'
  else if 0 < point ∧ point ≤ maxPoint then
    ds.take point.toNat ++ '.' :: ds.drop point.toNat
  else if minPoint < point ∧ point ≤ 0 then
    '0' :: '.' :: List.replicate point.natAbs '0' ++ ds
  else
    let e := point - 1
    let fraction := match ds.drop 1 with
      | [] => []
      | rest => '.' :: rest
    ds.take 1 ++ fraction ++ 'e' :: (if e < 0 then '-' else '+') :: Nat.toDigits 10 e.natAbs

/-- The text of a number. -/
def Binary64.text : Binary64 → String
  | .nan => "NaN"
  | .infinite negative => if negative then "-Infinity" else "Infinity"
  | .finite negative m =>
    if m.significand == 0 then "0"
    else
      let ds := m.shortest.text
      String.ofList (if negative then '-' :: ds else ds)

/-- The value of a digit in bases up to sixteen. -/
def digitValue? (c : Char) : Option Nat :=
  if c.isDigit then some (c.toNat - 48)
  else if 'a' ≤ c ∧ c ≤ 'f' then some (c.toNat - 87)
  else if 'A' ≤ c ∧ c ≤ 'F' then some (c.toNat - 55)
  else none

/-- The value of a digit sequence in a base. -/
def digitsValue (base : Nat) (ds : List Char) : Nat :=
  ds.foldl (fun n c => n * base + (digitValue? c).getD 0) 0

/-- A decimal numeral in parts: sign, digits before and behind the point, and exponent. -/
structure Numeral where
  negative : Bool
  whole : List Char
  fraction : List Char
  exponent : Int
  deriving DecidableEq

namespace Numeral

/-- The number nearest to a numeral. -/
def value (n : Numeral) : Binary64 :=
  Binary64.ofDecimal n.negative (digitsValue 10 (n.whole ++ n.fraction))
    (n.exponent - n.fraction.length)

/-- An exponent mark with its sign and digits, or nothing written. -/
def readExponent? : List Char → Option Int
  | [] => some 0
  | e :: rest =>
    if e == 'e' || e == 'E' then
      let (negative, ds) := match rest with
        | '-' :: ds => (true, ds)
        | '+' :: ds => (false, ds)
        | ds => (false, ds)
      if ds.isEmpty || !ds.all Char.isDigit then none
      else
        let n : Int := digitsValue 10 ds
        some (if negative then -n else n)
    else none

/-- A numeral with an optional minus sign, at least one digit before the point, and, when there is
a point, at least one digit behind it. -/
def read? (cs : List Char) : Option Numeral :=
  let (negative, cs) := match cs with
    | '-' :: rest => (true, rest)
    | rest => (false, rest)
  let whole := cs.takeWhile Char.isDigit
  if whole.isEmpty then none
  else
    match cs.dropWhile Char.isDigit with
    | '.' :: rest =>
      let fraction := rest.takeWhile Char.isDigit
      if fraction.isEmpty then none
      else (readExponent? (rest.dropWhile Char.isDigit)).map (⟨negative, whole, fraction, ·⟩)
    | rest => (readExponent? rest).map (⟨negative, whole, [], ·⟩)

end Numeral

end Metamodel.Decimal
