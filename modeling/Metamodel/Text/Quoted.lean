/-!
# String literals

A text is written between single quotes, with a backslash before each quote and each backslash.
Line breaks stand as they are, so the literal of a text that holds one is not well formed.
-/

namespace Metamodel.Text

/-- A character as it stands in a literal. -/
def quoteChar (c : Char) : List Char :=
  if c = '\\' ∨ c = '\x27' then ['\\', c] else [c]

/-- The literal of a text. -/
def quoteChars (cs : List Char) : List Char :=
  '\x27' :: cs.flatMap quoteChar ++ ['\x27']

/-- The literal of a string. -/
def quote (s : String) : String :=
  String.ofList (quoteChars s.toList)

end Metamodel.Text
