import Metamodel.Json.Basic

/-!
# Plain texts of JSON values

The text of a value within a message: strings as they stand, the items of an array with commas
between them, where null is empty, and objects without their contents.
-/

namespace Metamodel.Json

mutual

/-- The plain text of a value. -/
def plain : Json → String
  | .null => "null"
  | .bool b => if b then "true" else "false"
  | .number x => x.text
  | .string s => s
  | .array xs => ",".intercalate (plainItems xs)
  | .object _ => "[object Object]"

/-- The plain texts of items. -/
def plainItems : List Json → List String
  | [] => []
  | .null :: xs => "" :: plainItems xs
  | x :: xs => plain x :: plainItems xs

end

end Metamodel.Json
