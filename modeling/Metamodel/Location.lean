import Metamodel.Decimal.Text

/-!
# Locations

A place in a source file of the project.
-/

namespace Metamodel

/-- A file of the project, with line and column counted from one where they are known. -/
structure Location where
  file : String
  line : Option Nat
  column : Option Nat
  deriving DecidableEq

/-- The file, with the line and the column where they are known. -/
def Location.text (l : Location) : String :=
  let number (n : Nat) := (Decimal.Binary64.ofNat n).text
  match l.line.filter (· ≠ 0), l.column.filter (· ≠ 0) with
  | some line, some column => l.file ++ ":" ++ number line ++ ":" ++ number column
  | some line, none => l.file ++ ":" ++ number line
  | none, _ => l.file

end Metamodel
