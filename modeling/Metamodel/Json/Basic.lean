import Metamodel.Decimal.Text
import Metamodel.Text.Units

/-!
# JSON values

A value is null, a truth value, a number, a string, an array or an object. An object is the list
of its members in the order in which they are visited: names that are array indexes come first,
in numeric order, and the others follow in the order of their first occurrence (`Json.ofMembers`).
-/

namespace Metamodel

open Decimal

/-- A JSON value. -/
inductive Json where
  | null
  | bool (value : Bool)
  | number (value : Binary64)
  | string (value : String)
  | array (items : List Json)
  | object (members : List (String × Json))

namespace Json

instance : Inhabited Json := ⟨.null⟩

mutual

/-- Whether two values are the same, members in the same order. -/
def same : Json → Json → Bool
  | .null, .null => true
  | .bool a, .bool b => a == b
  | .number a, .number b => a == b
  | .string a, .string b => a == b
  | .array a, .array b => sameItems a b
  | .object a, .object b => sameMembers a b
  | _, _ => false

/-- Whether two lists of values are the same. -/
def sameItems : List Json → List Json → Bool
  | [], [] => true
  | a :: as, b :: bs => same a b && sameItems as bs
  | _, _ => false

/-- Whether two lists of members are the same. -/
def sameMembers : List (String × Json) → List (String × Json) → Bool
  | [], [] => true
  | (k, a) :: as, (l, b) :: bs => k == l && same a b && sameMembers as bs
  | _, _ => false

end

/-- A whole number. -/
def nat (n : Nat) : Json :=
  .number (.ofNat n)

/-- An array of strings. -/
def strings (xs : List String) : Json :=
  .array (xs.map .string)

/-- The member of an object with the given name. -/
def get? (v : Json) (name : String) : Option Json :=
  match v with
  | .object ms => ms.lookup name
  | _ => none

def asString? : Json → Option String
  | .string s => some s
  | _ => none

def asBool? : Json → Option Bool
  | .bool b => some b
  | _ => none

def asNumber? : Json → Option Binary64
  | .number x => some x
  | _ => none

def asArray? : Json → Option (List Json)
  | .array xs => some xs
  | _ => none

def asMembers? : Json → Option (List (String × Json))
  | .object ms => some ms
  | _ => none

/-- The number of an array index written without leading zeros, below `2 ^ 32 - 1`. -/
def arrayIndex? (name : String) : Option Nat :=
  let cs := name.toList
  if cs.isEmpty || !cs.all Char.isDigit || (cs.length > 1 && cs.head? == some '0') then none
  else
    let n := digitsValue 10 cs
    if cs.length ≤ 10 && n < 4294967295 then some n else none

/-- Sets a member, keeping the place of a name that is there already. -/
def setMember {α : Type} (ms : List (String × α)) (name : String) (v : α) : List (String × α) :=
  if ms.any (·.1 == name) then ms.map fun m => if m.1 == name then (name, v) else m
  else ms ++ [(name, v)]

/-- Members in visiting order: array indexes in numeric order, then the others as they stand. -/
def visitingOrder {α : Type} (ms : List (String × α)) : List (String × α) :=
  let indexed := ms.filterMap fun m => (arrayIndex? m.1).map (·, m)
  (indexed.mergeSort fun a b => a.1 ≤ b.1).map (·.2) ++
    ms.filter fun m => (arrayIndex? m.1).isNone

/-- The object with the given members, of which the last of each name counts. -/
def ofMembers (ms : List (String × Json)) : Json :=
  .object (visitingOrder (ms.foldl (fun acc m => setMember acc m.1 m.2) []))

/-- The object with those of the given members that are present. -/
def ofPresent (ms : List (String × Option Json)) : Json :=
  .object (ms.filterMap fun m => m.2.map (m.1, ·))

end Json

end Metamodel
