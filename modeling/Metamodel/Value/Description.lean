import Metamodel.Calendar
import Metamodel.Value.Hash

/-!
# Describing values

The texts that generated classes print of their values: `Person [id:1, name:Ada]`. An invalid
date has no text, and nor does what contains it.
-/

namespace Metamodel

/-- The text of a value, or nothing for an invalid date. -/
def Value.describe? : Value → Option String
  | .undefined => some "undefined"
  | .null => some "null"
  | .boolean b => some (if b then "true" else "false")
  | .string s => some s
  | .number x => some x.text
  | .bigint n => some (toString n)
  | .date instant _ => instant.bind Calendar.isoText?
  | .bytes .. => some "[object Uint8Array]"
  | .object kind _ => some kind.text

/-- The text of a field. -/
def describeField? (f : String × Value) : Option String :=
  f.2.describe?.map fun text => f.1 ++ ":" ++ text

/-- The text of an entity with its fields. -/
def describeEntity? (typeName : String) (fields : List (String × Value)) : Option String :=
  (fields.mapM describeField?).map fun parts =>
    typeName ++ " [" ++ ", ".intercalate parts ++ "]"

end Metamodel
