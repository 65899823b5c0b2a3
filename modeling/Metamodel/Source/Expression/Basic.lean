import Metamodel.Decimal.Binary64
import Metamodel.Source.TypeExpr.Basic

/-!
# Written expressions

An expression as it is written in a source text, as far as its value or its type can be told without
running it. All else is `other`.
-/

namespace Metamodel.Source

/-- A written expression. -/
inductive Expression where
  | word (name : String)
  /-- a member of what stands in front of the point; `written` is all of it as it stands -/
  | member (base : Expression) (name written : String)
  | text (value : String)
  /-- a text in backticks with expressions in it -/
  | template
  | number (value : Decimal.Binary64)
  | negative (inner : Expression)
  | bigint
  | boolean (value : Bool)
  | null
  | regex
  | array (items : List Expression)
  /-- the members that are written as a name or a text with a value -/
  | object (fields : List (String × Expression))
  | parenthesized (inner : Expression)
  | call (callee : Expression) (args : List Expression)
  /-- a new value of a class, with type arguments -/
  | construct (callee : Expression) (typeArgs : List TypeExpr)
  /-- an expression that is given a type -/
  | cast (type : TypeExpr)
  /-- an expression whose value is declared to be constant -/
  | constant (inner : Expression)
  /-- an expression that is held against a type -/
  | checked (inner : Expression)
  | other
  deriving Inhabited

namespace Expression

mutual

/-- The words of a dotted name. -/
def path? : Expression → Option (List String)
  | .word name => some [name]
  | .member base name _ => base.basePath?.map (· ++ [name])
  | _ => none

/-- The words of a dotted name that may stand in parentheses. -/
def basePath? : Expression → Option (List String)
  | .word name => some [name]
  | .member base name _ => base.basePath?.map (· ++ [name])
  | .parenthesized inner => inner.basePath?
  | _ => none

end

/-- The fields of an object, however it is declared. -/
def fields? : Expression → Option (List (String × Expression))
  | .object fields => some fields
  | .constant inner => inner.fields?
  | .checked inner => inner.fields?
  | .parenthesized inner => inner.fields?
  | _ => none

/-- The last name of a word or a member. -/
def lastName? : Expression → Option String
  | .word name => some name
  | .member _ name _ => some name
  | _ => none

end Expression

end Metamodel.Source
