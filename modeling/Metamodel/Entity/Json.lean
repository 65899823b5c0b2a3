import Metamodel.Entity.Basic
import Metamodel.Location.Json
import Metamodel.TypeRef.Json

/-!
# Entities as JSON

Members that are absent are left out; a missing cardinality is null. In reading, a member that is
missing is false, empty, or the first of its kind.
-/

namespace Metamodel

/-- The cardinality as its text, or null. -/
def cardinalityJson (c : Option Cardinality) : Json :=
  match c with
  | some c => .string c.text
  | none => .null

/-- The cardinality that an object names. -/
def cardinalityOfJson? (v : Json) : Option Cardinality :=
  (v.text? "cardinality").bind Cardinality.ofText?

/-- The property as an object. -/
def Property.toJson (p : Property) : Json :=
  .ofPresent
    [("name", some (.string p.name)), ("memberName", some (.string p.memberName)),
      ("columnName", some (.string p.columnName)),
      ("declaredTypeName", some (.string p.declaredTypeName)), ("type", some p.type.toJson),
      ("memberKind", some (.string p.memberKind.text)), ("isKey", some (.bool p.isKey)),
      ("isGenerated", some (.bool p.isGenerated)), ("isVersion", some (.bool p.isVersion)),
      ("isNullable", some (.bool p.isNullable)), ("isTransient", some (.bool p.isTransient)),
      ("isLazy", some (.bool p.isLazy)), ("isReadOnly", some (.bool p.isReadOnly)),
      ("isCollection", some (.bool p.isCollection)), ("isMap", some (.bool p.isMap)),
      ("cardinality", some (cardinalityJson p.cardinality)),
      ("inheritedFrom", p.inheritedFrom.map .string), ("source", p.source.map (·.toJson))]

/-- The property that an object describes. -/
def Property.ofJson (v : Json) : Property where
  name := v.text "name"
  memberName := v.text "memberName"
  columnName := v.text "columnName"
  declaredTypeName := v.text "declaredTypeName"
  type := TypeRef.ofJson ((v.get? "type").getD .null)
  memberKind := (MemberKind.ofText? (v.text "memberKind")).getD .field
  isKey := v.flag "isKey"
  isGenerated := v.flag "isGenerated"
  isVersion := v.flag "isVersion"
  isNullable := v.flag "isNullable"
  isTransient := v.flag "isTransient"
  isLazy := v.flag "isLazy"
  isReadOnly := v.flag "isReadOnly"
  isCollection := v.flag "isCollection"
  isMap := v.flag "isMap"
  cardinality := cardinalityOfJson? v
  inheritedFrom := v.text? "inheritedFrom"
  source := Location.underName? v "source"

/-- The listener as an object. -/
def Listener.toJson (l : Listener) : Json :=
  .ofPresent
    [("event", some (.string l.event.text)), ("methodName", some (.string l.methodName)),
      ("inheritedFrom", l.inheritedFrom.map .string)]

/-- The listener that an object describes, if its event is known. -/
def Listener.ofJson? (v : Json) : Option Listener :=
  (LifecycleEvent.ofText? (v.text "event")).map fun e =>
    ⟨e, v.text "methodName", v.text? "inheritedFrom"⟩

/-- The entity as an object. -/
def Entity.toJson (e : Entity) : Json :=
  .ofPresent
    [("packageName", some (.string e.packageName)), ("simpleName", some (.string e.simpleName)),
      ("qualifiedName", some (.string e.qualifiedName)), ("tableName", some (.string e.tableName)),
      ("entityName", e.entityName.map .string), ("kind", some (.string e.kind.text)),
      ("isAbstract", some (.bool e.isAbstract)), ("isInterface", some (.bool e.isInterface)),
      ("isImmutable", some (.bool e.isImmutable)), ("isReadOnly", some (.bool e.isReadOnly)),
      ("isStateless", some (.bool e.isStateless)), ("isView", some (.bool e.isView)),
      ("propertyNameStyle", some (.string e.nameStyle.text)),
      ("propertyVisibility", some (.string e.visibility.text)),
      ("properties", some (.array (e.properties.map (·.toJson)))),
      ("listeners", some (.array (e.listeners.map (·.toJson)))),
      ("source", e.source.map (·.toJson))]

/-- The entity that an object describes. -/
def Entity.ofJson (v : Json) : Entity where
  packageName := v.text "packageName"
  simpleName := v.text "simpleName"
  qualifiedName := v.text "qualifiedName"
  tableName := v.text "tableName"
  entityName := v.text? "entityName"
  kind := (EntityKind.ofText? (v.text "kind")).getD .entity
  isAbstract := v.flag "isAbstract"
  isInterface := v.flag "isInterface"
  isImmutable := v.flag "isImmutable"
  isReadOnly := v.flag "isReadOnly"
  isStateless := v.flag "isStateless"
  isView := v.flag "isView"
  nameStyle := (NameStyle.ofText? (v.text "propertyNameStyle")).getD .bean
  visibility := (Visibility.ofText? (v.text "propertyVisibility")).getD .public
  properties := (v.items "properties").map Property.ofJson
  listeners := (v.items "listeners").filterMap Listener.ofJson?
  source := Location.underName? v "source"

end Metamodel
