import Metamodel.Entity.Basic

/-!
# Attributes

What generated metadata knows of one property at run time. An attribute is defined step by step
with an `AttributeDraft`, which can be built any number of times. The type that it refers to is
supplied on first use and then kept; a supplier that fails is asked again the next time.
-/

namespace Metamodel

/-- The shape of an attribute's values. -/
inductive AttributeShape where
  | value
  | list
  | set
  | collection
  | map
  deriving DecidableEq

def AttributeShape.text : AttributeShape → String
  | value => "VALUE"
  | list => "LIST"
  | set => "SET"
  | collection => "COLLECTION"
  | map => "MAP"

/-- What supplies a related type: its name and the type's name, or the error it fails with. -/
structure TypeSupplier where
  name : String
  outcome : Except String String

/-- An attribute of an entity type. -/
structure Attribute where
  name : String
  columnName : String
  typeName : String
  shape : AttributeShape
  getterName : String
  setterName : Option String
  isKey : Bool
  isGenerated : Bool
  isVersion : Bool
  isNullable : Bool
  isReadOnly : Bool
  isLazy : Bool
  cardinality : Option Cardinality
  hasState : Bool
  supplier : Option TypeSupplier
  /-- the related type once it has been supplied -/
  supplied : Option String

namespace Attribute

/-- The related type, or the supplier's error. -/
def referencedType (a : Attribute) : Except String (Option String) :=
  match a.supplied, a.supplier with
  | some type, _ => .ok (some type)
  | none, some supplier => supplier.outcome.map some
  | none, none => .ok none

/-- The supplier that reading the related type asks. -/
def asked? (a : Attribute) : Option TypeSupplier :=
  if a.supplied.isSome then none else a.supplier

/-- The attribute after its related type has been read. -/
def afterReading (a : Attribute) : Attribute :=
  match a.referencedType with
  | .ok type => { a with supplied := type }
  | .error _ => a

end Attribute

/-- An attribute that is being defined. -/
structure AttributeDraft where
  name : String
  typeName : String
  columnName : Option String
  getterName : Option String
  setterName : Option String
  isKey : Bool
  isGenerated : Bool
  isVersion : Bool
  isNullable : Bool
  isReadOnly : Bool
  isLazy : Bool
  cardinality : Option Cardinality
  hasState : Bool
  supplier : Option TypeSupplier

namespace AttributeDraft

/-- A draft with nothing but the names. -/
def start (name typeName : String) : AttributeDraft :=
  ⟨name, typeName, none, none, none, false, false, false, false, false, false, none, false, none⟩

/-- The attribute as it is defined so far. -/
def build (d : AttributeDraft) (shape : AttributeShape) : Attribute where
  name := d.name
  columnName := d.columnName.getD d.name
  typeName := d.typeName
  shape := shape
  getterName := d.getterName.getD d.name
  setterName := d.setterName
  isKey := d.isKey
  isGenerated := d.isGenerated
  isVersion := d.isVersion
  isNullable := d.isNullable
  isReadOnly := d.isReadOnly
  isLazy := d.isLazy
  cardinality := d.cardinality
  hasState := d.hasState
  supplier := d.supplier
  supplied := none

end AttributeDraft

end Metamodel
