import Metamodel.Decimal.Binary64
import Metamodel.TypeRef

/-!
# Annotations as written

An annotation is a name with values under keys; a single unnamed value stands under `value`.
-/

namespace Metamodel

/-- A value given to an annotation. -/
inductive AnnotationValue where
  | string (value : String)
  | number (value : Decimal.Binary64)
  | boolean (value : Bool)
  | strings (values : List String)
  | type (ref : TypeRef)

instance : Inhabited AnnotationValue := ⟨.boolean false⟩

/-- An annotation as written. -/
structure Annotation where
  name : String
  values : Option (List (String × AnnotationValue))
  deriving Inhabited

end Metamodel
