import Metamodel.Artifact.Basic
import Metamodel.Entity.Json

/-!
# Artifacts as JSON

The structured form of a generated file, tagged with its kind. Fields that are absent are left
out; in reading, a member that is missing is false, empty, or the first of its kind.
-/

namespace Metamodel

namespace Import

/-- The import line as an object. -/
def toJson (i : Import) : Json :=
  .object
    [("from", .string i.module), ("names", .strings i.names), ("typeOnly", .bool i.typeOnly)]

/-- The import line that an object describes. -/
def ofJson (v : Json) : Import :=
  ⟨v.text "from", v.texts "names", v.flag "typeOnly"⟩

end Import

/-- A type expression as an object. -/
def typeExpressionJson (text : String) : Json :=
  .object [("text", .string text)]

/-- The type expression under the name of values. -/
def valueTypeOfJson (v : Json) : String :=
  ((v.get? "valueType").map (·.text "text")).getD ""

namespace AttributeModel

/-- The attribute as an object. -/
def toJson (a : AttributeModel) : Json :=
  .ofPresent
    [("fieldName", some (.string a.fieldName)), ("name", some (.string a.name)),
      ("columnName", some (.string a.columnName)),
      ("declaredTypeName", some (.string a.declaredTypeName)),
      ("valueType", some (typeExpressionJson a.valueType)),
      ("getterName", some (.string a.getterName)), ("setterName", a.setterName.map .string),
      ("isKey", some (.bool a.isKey)), ("isGenerated", some (.bool a.isGenerated)),
      ("isVersion", some (.bool a.isVersion)), ("isNullable", some (.bool a.isNullable)),
      ("isReadOnly", some (.bool a.isReadOnly)), ("isLazy", some (.bool a.isLazy)),
      ("cardinality", some (cardinalityJson a.cardinality)),
      ("referencedType", a.referencedType.map .string),
      ("builderMethod", some (.string a.builderMethod.text)),
      ("propertyStateField", a.stateField.map .string)]

/-- The attribute that an object describes. -/
def ofJson (v : Json) : AttributeModel where
  fieldName := v.text "fieldName"
  name := v.text "name"
  columnName := v.text "columnName"
  declaredTypeName := v.text "declaredTypeName"
  valueType := valueTypeOfJson v
  getterName := v.text "getterName"
  setterName := v.text? "setterName"
  isKey := v.flag "isKey"
  isGenerated := v.flag "isGenerated"
  isVersion := v.flag "isVersion"
  isNullable := v.flag "isNullable"
  isReadOnly := v.flag "isReadOnly"
  isLazy := v.flag "isLazy"
  cardinality := cardinalityOfJson? v
  referencedType := v.text? "referencedType"
  builderMethod := (BuilderMethod.ofText? (v.text "builderMethod")).getD .build
  stateField := v.text? "propertyStateField"

end AttributeModel

namespace AccessorModel

/-- The accessor as an object. -/
def toJson (a : AccessorModel) : Json :=
  .ofPresent
    [("property", some (.string a.property)), ("stateField", a.stateField.map .string),
      ("valueType", some (typeExpressionJson a.valueType)),
      ("readExpression", some (.string a.readExpression)),
      ("getterName", a.getterName.map .string), ("setterName", a.setterName.map .string),
      ("writable", some (.bool a.writable)), ("storage", some (.string a.storage.text)),
      ("backingField", a.backingField.map .string),
      ("propertyAccessor", some (.bool a.propertyAccessor))]

/-- The accessor that an object describes. -/
def ofJson (v : Json) : AccessorModel where
  property := v.text "property"
  stateField := v.text? "stateField"
  valueType := valueTypeOfJson v
  readExpression := v.text "readExpression"
  getterName := v.text? "getterName"
  setterName := v.text? "setterName"
  writable := v.flag "writable"
  storage := (Storage.ofText? (v.text "storage")).getD .inherited
  backingField := v.text? "backingField"
  propertyAccessor := v.flag "propertyAccessor"

end AccessorModel

namespace ListenerModel

/-- The registered method as an object. -/
def toJson (l : ListenerModel) : Json :=
  .object [("event", .string l.event.text), ("methodName", .string l.methodName)]

/-- The registered method that an object describes, if its event is known. -/
def ofJson? (v : Json) : Option ListenerModel :=
  (LifecycleEvent.ofText? (v.text "event")).map (⟨·, v.text "methodName"⟩)

end ListenerModel

namespace MetadataArtifact

/-- The metadata class as an object. -/
def toJson (m : MetadataArtifact) : Json :=
  .ofPresent
    [("kind", some (.string "metadata")), ("entity", some (.string m.entity)),
      ("entityKind", some (.string m.entityKind.text)),
      ("packageName", some (.string m.packageName)), ("fileName", some (.string m.fileName)),
      ("className", some (.string m.className)),
      ("entityTypeName", some (.string m.entityTypeName)),
      ("tableName", some (.string m.tableName)), ("isReadOnly", some (.bool m.isReadOnly)),
      ("isStateless", some (.bool m.isStateless)), ("isImmutable", some (.bool m.isImmutable)),
      ("implementationClass", m.implementationClass.map .string),
      ("attributes", some (.array (m.attributes.map (·.toJson)))),
      ("listeners", some (.array (m.listeners.map (·.toJson)))),
      ("imports", some (.array (m.imports.map (·.toJson))))]

/-- The metadata class that an object describes. -/
def ofJson (v : Json) : MetadataArtifact where
  entity := v.text "entity"
  entityKind := (EntityKind.ofText? (v.text "entityKind")).getD .entity
  packageName := v.text "packageName"
  fileName := v.text "fileName"
  className := v.text "className"
  entityTypeName := v.text "entityTypeName"
  tableName := v.text "tableName"
  isReadOnly := v.flag "isReadOnly"
  isStateless := v.flag "isStateless"
  isImmutable := v.flag "isImmutable"
  implementationClass := v.text? "implementationClass"
  attributes := (v.items "attributes").map AttributeModel.ofJson
  listeners := (v.items "listeners").filterMap ListenerModel.ofJson?
  imports := (v.items "imports").map Import.ofJson

end MetadataArtifact

namespace ImplementationArtifact

/-- The implementation class as an object; a described field is a pair. -/
def toJson (m : ImplementationArtifact) : Json :=
  .object
    [("kind", .string "implementation"), ("entity", .string m.entity),
      ("packageName", .string m.packageName), ("fileName", .string m.fileName),
      ("className", .string m.className), ("baseName", .string m.baseName),
      ("relation", .string m.relation.text), ("accessors", .array (m.accessors.map (·.toJson))),
      ("equalityExpressions", .strings m.equalityExpressions),
      ("describedFields", .array (m.describedFields.map fun f => .strings [f.1, f.2])),
      ("imports", .array (m.imports.map (·.toJson)))]

/-- The name and the expression of a described field. -/
def fieldOfJson (v : Json) : String × String :=
  match (v.asArray?.getD []).map fun x => x.asString?.getD "" with
  | name :: expression :: _ => (name, expression)
  | [name] => (name, "")
  | [] => ("", "")

/-- The implementation class that an object describes. -/
def ofJson (v : Json) : ImplementationArtifact where
  entity := v.text "entity"
  packageName := v.text "packageName"
  fileName := v.text "fileName"
  className := v.text "className"
  baseName := v.text "baseName"
  relation := (BaseRelation.ofText? (v.text "relation")).getD .extends
  accessors := (v.items "accessors").map AccessorModel.ofJson
  equalityExpressions := v.texts "equalityExpressions"
  describedFields := (v.items "describedFields").map fieldOfJson
  imports := (v.items "imports").map Import.ofJson

end ImplementationArtifact

namespace RegistryArtifact

/-- The registry as an object. -/
def toJson (m : RegistryArtifact) : Json :=
  .object
    [("kind", .string "registry"), ("packageName", .string m.packageName),
      ("fileName", .string m.fileName), ("types", .strings m.types),
      ("imports", .array (m.imports.map (·.toJson)))]

/-- The registry that an object describes. -/
def ofJson (v : Json) : RegistryArtifact where
  packageName := v.text "packageName"
  fileName := v.text "fileName"
  types := v.texts "types"
  imports := (v.items "imports").map Import.ofJson

end RegistryArtifact

namespace Artifact

/-- The artifact as an object. -/
def toJson : Artifact → Json
  | .implementation m => m.toJson
  | .metadata m => m.toJson
  | .registry m => m.toJson

/-- The artifact that an object describes; one of no other kind is a registry. -/
def ofJson (v : Json) : Artifact :=
  match v.text "kind" with
  | "metadata" => .metadata (.ofJson v)
  | "implementation" => .implementation (.ofJson v)
  | _ => .registry (.ofJson v)

end Artifact

end Metamodel
