import Metamodel.Declaration.Schema
import Metamodel.Location.Json
import Metamodel.TypeRef.Json

/-!
# Declarations as JSON

The records of a declaration set are read from the values that its schema accepts
(`Declaration.ofJson`), and written with absent fields left out (`Declaration.toJson`).
-/

namespace Metamodel

namespace AnnotationValue

/-- The annotation value that a value describes. -/
def ofJson (v : Json) : AnnotationValue :=
  let value := (v.get? "value").getD .null
  let kind := v.text "kind"
  if kind = "string" then .string (value.asString?.getD "")
  else if kind = "number" then .number (value.asNumber?.getD .nan)
  else if kind = "boolean" then .boolean (value.asBool?.getD false)
  else if kind = "strings" then .strings ((value.textsOf? some).getD [])
  else .type (TypeRef.ofJson value)

/-- The annotation value as an object. -/
def toJson (v : AnnotationValue) : Json :=
  let tagged := fun (kind : String) (value : Json) =>
    Json.object [("kind", .string kind), ("value", value)]
  match v with
  | .string s => tagged "string" (.string s)
  | .number x => tagged "number" (.number x)
  | .boolean b => tagged "boolean" (.bool b)
  | .strings xs => tagged "strings" (.strings xs)
  | .type t => tagged "type" t.toJson

end AnnotationValue

namespace Annotation

/-- The annotation that a value describes. -/
def ofJson (v : Json) : Annotation where
  name := v.text "name"
  values := (v.field? "values" Json.asMembers?).map
    (·.map fun m => (m.1, AnnotationValue.ofJson m.2))

/-- The annotation as an object. -/
def toJson (a : Annotation) : Json :=
  .ofPresent
    [("name", some (.string a.name)),
      ("values", a.values.map fun vs => .object (vs.map fun m => (m.1, m.2.toJson)))]

end Annotation

namespace Member

/-- The member that a value describes. -/
def ofJson (v : Json) : Member where
  name := v.text "name"
  kind := (MemberKind.ofText? (v.text "kind")).getD .field
  parameterCount := v.field? "parameterCount" Json.asNat?
  type := (v.field? "type" (some ∘ TypeRef.ofJson)).getD .unknown
  modifiers := v.field? "modifiers" (Json.textsOf? MemberModifier.ofText?)
  annotations := v.field? "annotations" (Json.listOf? Annotation.ofJson)
  source := v.field? "source" (some ∘ Location.ofJson)

/-- The member as an object. -/
def toJson (m : Member) : Json :=
  .ofPresent
    [("name", some (.string m.name)), ("kind", some (.string m.kind.text)),
      ("parameterCount", m.parameterCount.map .nat), ("type", some m.type.toJson),
      ("modifiers", m.modifiers.map fun ms => .strings (ms.map (·.text))),
      ("annotations", m.annotations.map fun as => .array (as.map (·.toJson))),
      ("source", m.source.map (·.toJson))]

end Member

namespace Declaration

/-- The declaration that a value describes. -/
def ofJson (v : Json) : Declaration where
  packageName := v.text "packageName"
  simpleName := v.text "simpleName"
  qualifiedName := v.field? "qualifiedName" Json.asString?
  kind := (DeclarationKind.ofText? (v.text "declarationKind")).getD .class
  modifiers := v.field? "modifiers" (Json.textsOf? TypeModifier.ofText?)
  annotations := v.field? "annotations" (Json.listOf? Annotation.ofJson)
  superTypes := v.field? "superTypes" (Json.listOf? TypeRef.ofJson)
  members := v.field? "members" (Json.listOf? Member.ofJson)
  source := v.field? "source" (some ∘ Location.ofJson)

/-- The declaration as an object; a missing qualified name is null. -/
def toJson (d : Declaration) : Json :=
  .ofPresent
    [("packageName", some (.string d.packageName)), ("simpleName", some (.string d.simpleName)),
      ("qualifiedName", some ((d.qualifiedName.map Json.string).getD .null)),
      ("declarationKind", some (.string d.kind.text)),
      ("modifiers", d.modifiers.map fun ms => .strings (ms.map (·.text))),
      ("annotations", d.annotations.map fun as => .array (as.map (·.toJson))),
      ("superTypes", d.superTypes.map fun ts => .array (ts.map (·.toJson))),
      ("members", d.members.map fun ms => .array (ms.map (·.toJson))),
      ("source", d.source.map (·.toJson))]

/-- The declarations of a declaration set. -/
def listOfSet (v : Json) : List Declaration :=
  (v.field? "declarations" (Json.listOf? ofJson)).getD []

/-- The declaration set of declarations. -/
def setJson (ds : List Declaration) : Json :=
  .object
    [("schemaVersion", .string declarationSetVersion),
      ("declarations", .array (ds.map (·.toJson)))]

end Declaration

end Metamodel
