import Metamodel.Entity.Basic

/-!
# Artifacts

The structured form of the generated files: for each mapped type its metadata class and, for a
mutable entity, its implementation class; for each package a registry of its entities.
-/

namespace Metamodel

/-- An import line. An import of types only leaves no trace at run time. -/
structure Import where
  module : String
  names : List String
  typeOnly : Bool
  deriving DecidableEq

/-- The method that ends the definition of an attribute, by the shape of its values. -/
inductive BuilderMethod where
  | build
  | buildList
  | buildSet
  | buildCollection
  | buildMap
  deriving DecidableEq

namespace BuilderMethod

def text : BuilderMethod → String
  | build => "build"
  | buildList => "buildList"
  | buildSet => "buildSet"
  | buildCollection => "buildCollection"
  | buildMap => "buildMap"

def all : List BuilderMethod := [build, buildList, buildSet, buildCollection, buildMap]

/-- The method with the given text. -/
def ofText? (s : String) : Option BuilderMethod :=
  all.find? (·.text == s)

end BuilderMethod

/-- A static attribute of a metadata class. -/
structure AttributeModel where
  fieldName : String
  name : String
  columnName : String
  declaredTypeName : String
  /-- the type expression of the property's values -/
  valueType : String
  getterName : String
  /-- absent for a read-only property -/
  setterName : Option String
  isKey : Bool
  isGenerated : Bool
  isVersion : Bool
  isNullable : Bool
  isReadOnly : Bool
  isLazy : Bool
  cardinality : Option Cardinality
  /-- the expression that names the related metadata -/
  referencedType : Option String
  builderMethod : BuilderMethod
  /-- the state field of the generated implementation -/
  stateField : Option String
  deriving DecidableEq

/-- A method that a metadata class registers for an event. -/
structure ListenerModel where
  event : LifecycleEvent
  methodName : String
  deriving DecidableEq

/-- A metadata class. -/
structure MetadataArtifact where
  entity : String
  entityKind : EntityKind
  packageName : String
  /-- the path below the output directory -/
  fileName : String
  className : String
  /-- the type that the attributes are declared against -/
  entityTypeName : String
  tableName : String
  isReadOnly : Bool
  isStateless : Bool
  isImmutable : Bool
  /-- the generated class whose instances the factory makes -/
  implementationClass : Option String
  attributes : List AttributeModel
  listeners : List ListenerModel
  imports : List Import
  deriving DecidableEq

/-- Where an accessor keeps its value: in the extended class, or in a generated field. -/
inductive Storage where
  | inherited
  | backing
  deriving DecidableEq

namespace Storage

def text : Storage → String
  | inherited => "inherited"
  | backing => "backing"

/-- The storage with the given text. -/
def ofText? (s : String) : Option Storage :=
  [inherited, backing].find? (·.text == s)

end Storage

/-- The generated access to a property. -/
structure AccessorModel where
  property : String
  /-- absent for stateless entities and transient properties -/
  stateField : Option String
  valueType : String
  /-- the expression that reads the current value -/
  readExpression : String
  /-- the generated getter method -/
  getterName : Option String
  /-- the generated setter method -/
  setterName : Option String
  writable : Bool
  storage : Storage
  backingField : Option String
  /-- whether the property itself is declared again over its backing field -/
  propertyAccessor : Bool
  deriving DecidableEq

/-- How an implementation class stands to the declared type. -/
inductive BaseRelation where
  | extends
  | implements
  deriving DecidableEq

namespace BaseRelation

def text : BaseRelation → String
  | .extends => "extends"
  | .implements => "implements"

/-- The relation with the given text. -/
def ofText? (s : String) : Option BaseRelation :=
  [BaseRelation.extends, BaseRelation.implements].find? (·.text == s)

end BaseRelation

/-- An implementation class. -/
structure ImplementationArtifact where
  entity : String
  packageName : String
  fileName : String
  className : String
  baseName : String
  relation : BaseRelation
  accessors : List AccessorModel
  /-- the expressions that equality compares and hashing combines -/
  equalityExpressions : List String
  /-- names and expressions that the description prints -/
  describedFields : List (String × String)
  imports : List Import
  deriving DecidableEq

/-- The registry of a package. -/
structure RegistryArtifact where
  packageName : String
  fileName : String
  /-- the metadata classes of the package, in dictionary order -/
  types : List String
  imports : List Import
  deriving DecidableEq

/-- A generated file. -/
inductive Artifact where
  | implementation (model : ImplementationArtifact)
  | metadata (model : MetadataArtifact)
  | registry (model : RegistryArtifact)
  deriving DecidableEq

/-- The path below the output directory. -/
def Artifact.fileName : Artifact → String
  | .implementation m => m.fileName
  | .metadata m => m.fileName
  | .registry m => m.fileName

end Metamodel
