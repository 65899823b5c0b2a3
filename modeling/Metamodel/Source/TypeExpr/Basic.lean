import Metamodel.Source.Token

/-!
# Written types

A type as it is written in a source text. Only what a reader of declarations can tell apart is kept:
functions, object types, tuples and computed types are all `other`.
-/

namespace Metamodel.Source

/-- The classes of plain values that have literals. -/
inductive Scalar where
  | string
  | number
  | boolean
  | bigint
  deriving DecidableEq, Inhabited

def Scalar.name : Scalar → String
  | string => "string"
  | number => "number"
  | boolean => "boolean"
  | bigint => "bigint"

/-- A written type. -/
inductive TypeExpr where
  /-- a type that the language names by a keyword -/
  | keyword (name : String)
  /-- the type of one value, with the value as written -/
  | literal (scalar : Scalar) (text : String)
  | null
  /-- a dotted name with type arguments; `written` is the name as it stands in the text -/
  | reference (path : List String) (written : String) (args : List TypeExpr)
  /-- a dotted name that a module exports -/
  | imported (source : String) (path : List String) (args : List TypeExpr)
  | array (element : TypeExpr)
  | readonly (inner : TypeExpr)
  | union (members : List TypeExpr)
  | intersection (members : List TypeExpr)
  | parenthesized (inner : TypeExpr)
  /-- the answer of a test of a value's type -/
  | test
  /-- the absent result of an assertion on a value's type -/
  | assertion
  /-- the type of a named value -/
  | typeOf (path : List String)
  | other
  deriving Inhabited

/-- A type parameter of a declaration. -/
structure TypeParameter where
  name : String
  default : Option TypeExpr
  deriving Inhabited

end Metamodel.Source
