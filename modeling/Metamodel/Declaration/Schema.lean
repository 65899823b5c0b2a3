import Metamodel.Annotation.Basic
import Metamodel.Declaration.Basic
import Metamodel.Schema.Basic

/-!
# The schema of declaration sets

The records of a declaration set as a supplier writes them, field by field.
-/

namespace Metamodel

open Schema (FieldForm Form Records)

/-- The version of declaration sets. -/
def declarationSetVersion : String := "1.0"

namespace Declaration

/-- The records of a declaration set. -/
inductive Shape where
  | location
  | typeRef
  | stringValue
  | numberValue
  | booleanValue
  | stringsValue
  | typeValue
  | annotationUse
  | member
  | declaration
  | declarationSet
  deriving DecidableEq

/-- The fields of an annotation value of a kind. -/
def valueFields (kind : String) (form : Form Shape) : List (FieldForm Shape) :=
  [⟨"kind", true, .constant kind⟩, ⟨"value", true, form⟩]

/-- The form of an annotation value: exactly one of five. -/
def valueForm : Form Shape :=
  .exactlyOne [.stringValue, .numberValue, .booleanValue, .stringsValue, .typeValue]

/-- The fields of each record. -/
def records : Records Shape
  | .location =>
    [⟨"file", true, .string 0⟩, ⟨"line", false, .integer 1⟩, ⟨"col", false, .integer 1⟩]
  | .typeRef =>
    [⟨"kind", true, .oneOfTexts (TypeKind.all.map (·.text))⟩, ⟨"name", true, .string 0⟩,
      ⟨"container", false, .oneOfTexts (ContainerShape.all.map (·.text))⟩,
      ⟨"typeArgs", false, .list (.record .typeRef)⟩, ⟨"file", false, .string 0⟩,
      ⟨"nullable", false, .boolean⟩]
  | .stringValue => valueFields "string" (.string 0)
  | .numberValue => valueFields "number" .number
  | .booleanValue => valueFields "boolean" .boolean
  | .stringsValue => valueFields "strings" (.list (.string 0))
  | .typeValue => valueFields "type" (.record .typeRef)
  | .annotationUse => [⟨"name", true, .string 1⟩, ⟨"values", false, .table valueForm⟩]
  | .member =>
    [⟨"name", true, .string 0⟩, ⟨"kind", true, .oneOfTexts (MemberKind.all.map (·.text))⟩,
      ⟨"parameterCount", false, .integer 0⟩, ⟨"type", true, .record .typeRef⟩,
      ⟨"modifiers", false, .list (.oneOfTexts (MemberModifier.all.map (·.text)))⟩,
      ⟨"annotations", false, .list (.record .annotationUse)⟩, ⟨"source", false, .record .location⟩]
  | .declaration =>
    [⟨"packageName", true, .string 0⟩, ⟨"simpleName", true, .string 0⟩,
      ⟨"qualifiedName", false, .stringOrNull⟩,
      ⟨"declarationKind", true, .oneOfTexts (DeclarationKind.all.map (·.text))⟩,
      ⟨"modifiers", false, .list (.oneOfTexts (TypeModifier.all.map (·.text)))⟩,
      ⟨"annotations", false, .list (.record .annotationUse)⟩,
      ⟨"superTypes", false, .list (.record .typeRef)⟩,
      ⟨"members", false, .list (.record .member)⟩, ⟨"source", false, .record .location⟩]
  | .declarationSet =>
    [⟨"schemaVersion", true, .constant declarationSetVersion⟩,
      ⟨"declarations", true, .list (.record .declaration)⟩]

/-- The number of problems that a refusal lists at most. -/
def maxProblems : Nat := 20

/-- What is wrong with a value as a declaration set. -/
def setProblems (v : Json) : List Schema.Problem :=
  Schema.problems records [] (.record .declarationSet) v

end Declaration

/-- Why a declaration set could not be read. -/
inductive DeclarationsError where
  /-- the file cannot be read, for a reason of the file system -/
  | unreadable (file reason : String)
  | notJson (file : String)
  /-- the value has problems, of which the first ones are listed -/
  | invalid (file : Option String) (problems : List Schema.Problem)
  deriving DecidableEq

def DeclarationsError.message : DeclarationsError → String
  | unreadable file reason => "Failed to read declarations " ++ file ++ ": " ++ reason
  | notJson file => "Declarations " ++ file ++ " is not valid JSON: malformed text"
  | invalid file problems =>
    "Invalid declaration set" ++
      (match file.filter (· ≠ "") with
        | some f => " in " ++ f
        | none => "") ++
      ":\n" ++ "\n".intercalate (problems.map Schema.Problem.line)

/-- The value itself, when it is a declaration set. -/
def parseDeclarationSet (v : Json) (file : Option String) : Except DeclarationsError Json :=
  match Declaration.setProblems v with
  | [] => .ok v
  | ps => .error (.invalid file (ps.take Declaration.maxProblems))

end Metamodel
