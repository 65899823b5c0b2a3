import Metamodel.Diagnostic
import Metamodel.Location.Json

/-!
# Diagnostics as JSON

What a finding is about is left out where it is not known.
-/

namespace Metamodel.Diagnostic

/-- The finding as an object. -/
def toJson (d : Diagnostic) : Json :=
  .ofPresent
    [("code", some (.string d.code.text)), ("severity", some (.string d.severity.text)),
      ("message", some (.string d.message)), ("entity", d.entity.map .string),
      ("property", d.property.map .string), ("location", d.location.map (·.toJson))]

/-- A finding about what an object describes. -/
def about (code severity message : String) (place : Json) : Diagnostic where
  code := .ofText code
  severity := (Severity.ofText? severity).getD .info
  message := message
  entity := place.text? "entity"
  property := place.text? "property"
  location := Location.underName? place "location"

/-- The finding that an object describes. -/
def ofJson (v : Json) : Diagnostic :=
  about (v.text "code") (v.text "severity") (v.text "message") v

end Metamodel.Diagnostic
