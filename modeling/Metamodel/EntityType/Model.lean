/-!
# Entity models

The types of one package, found by their names.
-/

namespace Metamodel

/-- The types of a package. -/
structure EntityModel (Ty : Type) where
  name : String
  types : List (String × Ty)

/-- A type name that occurs twice in a model. -/
structure DuplicateType where
  type : String
  model : String
  deriving DecidableEq

def DuplicateType.message (e : DuplicateType) : String :=
  "Duplicate type " ++ e.type ++ " in model " ++ e.model

namespace EntityModel

variable {Ty : Type}

/-- The type of a name. -/
def typeOf? (m : EntityModel Ty) (name : String) : Option Ty :=
  m.types.lookup name

/-- Adds a type under its name. -/
def add (m : EntityModel Ty) (entry : String × Ty) : Except DuplicateType (EntityModel Ty) :=
  if (m.typeOf? entry.1).isSome then .error ⟨entry.1, m.name⟩
  else .ok { m with types := m.types ++ [entry] }

/-- The model of the given types. -/
def create (name : String) (types : List (String × Ty)) : Except DuplicateType (EntityModel Ty) :=
  types.foldlM add ⟨name, []⟩

end EntityModel

end Metamodel
