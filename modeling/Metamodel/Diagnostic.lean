import Metamodel.Location
import Metamodel.Text.Collation

/-!
# Diagnostics

What a run has to say about the declarations: a code, a severity, a message, and what it is about.
`Diagnostic.sorted` orders them by location, code and message.
-/

namespace Metamodel

/-- How much a diagnostic weighs. -/
inductive Severity where
  | info
  | warning
  | error
  deriving DecidableEq, Inhabited

namespace Severity

def text : Severity → String
  | info => "info"
  | warning => "warning"
  | error => "error"

def all : List Severity := [info, warning, error]

/-- The severity with the given text. -/
def ofText? (s : String) : Option Severity :=
  all.find? (·.text == s)

end Severity

/-- What a diagnostic reports. -/
inductive DiagnosticCode where
  | missingQualifiedName
  | unresolvedAnnotationReference
  | internalError
  | unresolvedType
  | multipleCardinality
  | duplicateMember
  | invalidEntityName
  | missingKey
  | multipleVersion
  | toManyNotCollection
  | danglingRelationship
  | emptyEntity
  | loneGeneratedKey
  | reservedTableName
  /-- a code that no run of this library reports -/
  | other (name : String)
  deriving DecidableEq, Inhabited

namespace DiagnosticCode

def text : DiagnosticCode → String
  | missingQualifiedName => "missingQualifiedName"
  | unresolvedAnnotationReference => "unresolvedAnnotationReference"
  | internalError => "internalError"
  | unresolvedType => "unresolvedType"
  | multipleCardinality => "multipleCardinality"
  | duplicateMember => "duplicateMember"
  | invalidEntityName => "invalidEntityName"
  | missingKey => "missingKey"
  | multipleVersion => "multipleVersion"
  | toManyNotCollection => "toManyNotCollection"
  | danglingRelationship => "danglingRelationship"
  | emptyEntity => "emptyEntity"
  | loneGeneratedKey => "loneGeneratedKey"
  | reservedTableName => "reservedTableName"
  | other name => name

/-- The codes that a run reports. -/
def known : List DiagnosticCode :=
  [missingQualifiedName, unresolvedAnnotationReference, internalError, unresolvedType,
    multipleCardinality, duplicateMember, invalidEntityName, missingKey, multipleVersion,
    toManyNotCollection, danglingRelationship, emptyEntity, loneGeneratedKey, reservedTableName]

/-- The code with the given text. -/
def ofText (s : String) : DiagnosticCode :=
  (known.find? (·.text == s)).getD (other s)

/-- Whether the code means that a declaration could not be built. -/
def isFatal : DiagnosticCode → Bool
  | missingQualifiedName | unresolvedAnnotationReference | internalError => true
  | _ => false

end DiagnosticCode

/-- A finding about a declaration. -/
structure Diagnostic where
  code : DiagnosticCode
  severity : Severity
  message : String
  /-- the best available name of the declaration -/
  entity : Option String
  property : Option String
  location : Option Location
  deriving DecidableEq, Inhabited

namespace Diagnostic

/-- Whether some finding is an error. -/
def hasErrors (ds : List Diagnostic) : Bool :=
  ds.any (·.severity == .error)

/-- The text of the finding's location; empty when there is none. -/
def locationText (d : Diagnostic) : String :=
  (d.location.map Location.text).getD ""

/-- The finding on one line. -/
def line (d : Diagnostic) : String :=
  let place := d.locationText
  (if place = "" then "" else place ++ " ") ++ d.severity.text ++ " " ++ d.code.text ++ ": " ++
    d.message

/-- The order by location, then code, then message. -/
def compare (a b : Diagnostic) : Ordering :=
  ((Text.collate a.locationText b.locationText).then (Text.collate a.code.text b.code.text)).then
    (Text.collate a.message b.message)

/-- The findings in order; equal ones keep theirs. -/
def sorted (ds : List Diagnostic) : List Diagnostic :=
  ds.mergeSort fun a b => (compare a b).isLE

end Diagnostic

end Metamodel
