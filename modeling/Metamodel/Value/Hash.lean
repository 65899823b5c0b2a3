import Metamodel.Decimal.Text
import Metamodel.Text.Units
import Metamodel.Value.Basic

/-!
# Hashing values

Sequences hash by a polynomial with base 31 in 32-bit arithmetic: texts over their 16-bit units
from 0, and lists of values over the hashes of their items from 1. The products wrap to 32 bits; the
sums are sums of binary64 numbers, whose whole parts wrap again.
-/

namespace Metamodel

/-- The kind of an object as generated descriptions show it. -/
def ObjectKind.text : ObjectKind → String
  | .object => "[object Object]"
  | .array => "[object Array]"
  | .map => "[object Map]"
  | .set => "[object Set]"
  | .tagged tag => "[object " ++ tag ++ "]"

namespace Hash

open Decimal (Binary64 wrap32)

/-- Takes one more number into a hash. -/
def combine (h n : Int) : Int :=
  wrap32 (Binary64.ofInt (wrap32 (31 * h)) + Binary64.ofInt n).truncate

/-- The hash of a list of numbers. -/
def ofNumbers (start : Int) (ns : List Int) : Int :=
  ns.foldl combine start

/-- The hash of a sequence of 16-bit units. -/
def ofUnits (us : List Nat) : Int :=
  ofNumbers 0 (us.map Int.ofNat)

/-- The hash of a text. -/
def ofText (cs : List Char) : Int :=
  ofUnits (Text.units cs)

/-- The hash of a number: a whole number hashes to itself within 32 bits, others to their text. -/
def ofNumber (x : Binary64) : Int :=
  match x.toInt? with
  | some n => wrap32 n
  | none => ofText x.text.toList

/-- The hash of an instant, which an invalid date has not. -/
def ofInstant (instant : Option Int) : Int :=
  match instant with
  | some ms => wrap32 ms
  | none => ofNumber .nan

/-- The hash of a value. Objects hash by their kind alone, since equality tells them apart. -/
def ofValue : Value → Int
  | .undefined | .null => 0
  | .boolean b => if b then 1231 else 1237
  | .string s => ofText s.toList
  | .number x => ofNumber x
  | .bigint n => ofText (toString n).toList
  | .date instant _ => ofInstant instant
  | .bytes content _ => ofNumbers 1 (content.map fun b => (b.toNat : Int))
  | .object kind _ => ofText kind.text.toList

/-- The hash of a list of values. -/
def ofValues (vs : List Value) : Int :=
  ofNumbers 1 (vs.map ofValue)

end Hash

end Metamodel
