/-!
# Registries

What has been built, under its qualified name, in the order of definition. A name is defined once;
`define` refuses it the second time.
-/

namespace Metamodel

/-- Values under names, in the order of their definition. -/
structure Registry (α : Type) where
  label : String
  entries : List (String × α)

/-- A name that a registry holds already. -/
structure AlreadyDefined where
  label : String
  name : String
  deriving DecidableEq

def AlreadyDefined.message (e : AlreadyDefined) : String :=
  e.label ++ " descriptor already defined: " ++ e.name

namespace Registry

variable {α : Type}

def empty (label : String) : Registry α :=
  ⟨label, []⟩

/-- The value of a name. -/
def get? (r : Registry α) (name : String) : Option α :=
  r.entries.lookup name

/-- Whether the name is defined. -/
def has (r : Registry α) (name : String) : Bool :=
  (r.get? name).isSome

def size (r : Registry α) : Nat :=
  r.entries.length

/-- The values in the order of their definition. -/
def values (r : Registry α) : List α :=
  r.entries.map (·.2)

/-- The registry with one more name. -/
def define (r : Registry α) (name : String) (value : α) : Except AlreadyDefined (Registry α) :=
  if r.has name then .error ⟨r.label, name⟩
  else .ok { r with entries := r.entries ++ [(name, value)] }

end Registry

end Metamodel
