import Metamodel.Json.Basic
import Metamodel.TypeRef

/-!
# Type references as JSON

Members that are absent in a reference are left out of its object.
-/

namespace Metamodel.TypeRef

mutual

/-- The reference as an object. -/
def toJson : TypeRef → Json
  | ⟨kind, name, container, typeArgs, file, nullable⟩ =>
    .ofPresent
      [("kind", some (.string kind.text)), ("name", some (.string name)),
        ("container", container.map (.string ·.text)),
        ("typeArgs",
          match typeArgs with
          | none => none
          | some ts => some (.array (toJsonList ts))),
        ("file", file.map .string), ("nullable", nullable.map .bool)]

/-- The references as objects. -/
def toJsonList : List TypeRef → List Json
  | [] => []
  | t :: ts => toJson t :: toJsonList ts

end

/-- What a reference says besides its type arguments; unknown kinds count as unresolved. -/
def ofMembers (get : String → Option Json) (typeArgs : Option (List TypeRef)) : TypeRef where
  kind := (((get "kind").bind Json.asString?).bind TypeKind.ofText?).getD .unresolved
  name := ((get "name").bind Json.asString?).getD ""
  container := ((get "container").bind Json.asString?).bind ContainerShape.ofText?
  typeArgs := typeArgs
  file := (get "file").bind Json.asString?
  nullable := (get "nullable").bind Json.asBool?

mutual

/-- The reference that a value describes. -/
def ofJson : Json → TypeRef
  | .object ms => ofMembers (fun k => ms.lookup k) (argsOfMembers ms)
  | v => ofMembers v.get? none

/-- The type arguments among the members of an object. -/
def argsOfMembers : List (String × Json) → Option (List TypeRef)
  | [] => none
  | (k, v) :: ms => if k == "typeArgs" then argsOfValue v else argsOfMembers ms

/-- The type arguments that a value lists. -/
def argsOfValue : Json → Option (List TypeRef)
  | .array xs => some (ofJsonList xs)
  | _ => none

/-- The references that values describe. -/
def ofJsonList : List Json → List TypeRef
  | [] => []
  | x :: xs => ofJson x :: ofJsonList xs

end

end Metamodel.TypeRef
