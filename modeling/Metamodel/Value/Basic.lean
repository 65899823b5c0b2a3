import Metamodel.Decimal.Binary64

/-!
# Values of properties

The values that generated classes compare, hash and describe. Numbers, texts and truth values are
told apart by their contents, and so are dates and byte arrays; all other objects by identity.
-/

namespace Metamodel

/-- The kinds of objects that are told apart by identity alone. -/
inductive ObjectKind where
  | object
  | array
  | map
  | set
  /-- a kind that is known by its tag -/
  | tagged (tag : String)
  deriving DecidableEq

/-- A value of a property. Dates count milliseconds from the start of 1970, and an invalid date has
no instant; dates, bytes and objects carry the identity of the object that holds them. -/
inductive Value where
  | undefined
  | null
  | boolean (value : Bool)
  | string (value : String)
  | number (value : Decimal.Binary64)
  | bigint (value : Int)
  | date (instant : Option Int) (identity : Nat)
  | bytes (content : List UInt8) (identity : Nat)
  | object (kind : ObjectKind) (identity : Nat)
  deriving DecidableEq

namespace Value

/-- Whether two values are equal: the same value, the same object, the same valid instant, or the
same bytes. -/
def equals : Value → Value → Bool
  | .date s i, .date t j => i == j || (s.isSome && s == t)
  | .bytes x i, .bytes y j => i == j || x == y
  | .object _ i, .object _ j => i == j
  | a, b => a == b

end Value

end Metamodel
