import Metamodel.Json.Field
import Metamodel.Location

/-!
# Locations as JSON

A line or a column that is not known is left out.
-/

namespace Metamodel.Location

/-- The location as an object. -/
def toJson (l : Location) : Json :=
  .ofPresent
    [("file", some (.string l.file)), ("line", l.line.map .nat), ("col", l.column.map .nat)]

/-- The location that a value describes. -/
def ofJson (v : Json) : Location where
  file := v.text "file"
  line := v.field? "line" Json.asNat?
  column := v.field? "col" Json.asNat?

/-- The location that a value describes; none unless it is an object. -/
def ofJson? (v : Json) : Option Location :=
  v.asMembers?.map fun ms => ofJson (.object ms)

/-- The location under a name of an object. -/
def underName? (v : Json) (name : String) : Option Location :=
  v.field? name ofJson?

end Metamodel.Location
