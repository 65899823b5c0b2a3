import Metamodel.Json.Basic

/-!
# Members by name

Records are read from objects member by member: `Json.field?` reads the member of a name by a
function, and the other readers give a value of their own where the member is missing or of
another kind.
-/

namespace Metamodel.Json

open Decimal

/-- The natural number of a whole value. -/
def asNat? (v : Json) : Option Nat :=
  v.asNumber?.bind fun x => x.toInt?.map Int.toNat

/-- The member of a name, as read by a function. -/
def field? {α : Type} (v : Json) (name : String) (read : Json → Option α) : Option α :=
  (v.get? name).bind read

/-- The string under a name, if there is one. -/
def text? (v : Json) (name : String) : Option String :=
  v.field? name asString?

/-- The string under a name; empty when there is none. -/
def text (v : Json) (name : String) : String :=
  (v.text? name).getD ""

/-- The truth value under a name; false when there is none. -/
def flag (v : Json) (name : String) : Bool :=
  (v.field? name asBool?).getD false

/-- The items of the array under a name; none when there is no array. -/
def items (v : Json) (name : String) : List Json :=
  (v.field? name asArray?).getD []

/-- The strings in the array under a name. -/
def texts (v : Json) (name : String) : List String :=
  (v.items name).filterMap asString?

/-- The items of an array, read one by one; nothing when the value is no array. -/
def listOf? {α : Type} (read : Json → α) (v : Json) : Option (List α) :=
  v.asArray?.map (·.map read)

/-- The strings of an array that a function knows. -/
def textsOf? {α : Type} (ofText? : String → Option α) (v : Json) : Option (List α) :=
  v.asArray?.map (·.filterMap fun x => x.asString?.bind ofText?)

end Metamodel.Json
