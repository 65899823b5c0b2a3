import Metamodel.Json.Plain
import Metamodel.Text.Blank
import Metamodel.Text.CaseMap

/-!
# Truth values of options

An option that may be given with or without a value is read as a truth value: a few words mean
true, a few mean false, no text at all means true, and anything else leaves the default.
-/

namespace Metamodel.CommandLine

/-- The words that mean true. -/
def trueWords : List String := ["1", "true", "yes", "y", "on"]

/-- The words that mean false. -/
def falseWords : List String := ["0", "false", "no", "n", "off"]

/-- The truth value that a text gives. -/
def truthOfText (text : String) (default : Bool) : Bool :=
  let word := Text.lowercase (Text.trimmed text)
  if word = "" ∨ word ∈ trueWords then true
  else if word ∈ falseWords then false
  else default

/-- The truth value that a value gives. -/
def truthOf (v : Json) (default : Bool) : Bool :=
  match v with
  | .null => default
  | .bool b => b
  | v => truthOfText v.plain default

end Metamodel.CommandLine
