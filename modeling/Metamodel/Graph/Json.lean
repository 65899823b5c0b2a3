import Metamodel.Entity.Json
import Metamodel.Graph.Basic
import Metamodel.Json.Printer
import Metamodel.Text.Collation

/-!
# Graphs as JSON

A graph is written with its entities in the order of their qualified names and its edges in the
order of their sources and properties, so that the order of the declarations does not show.
-/

namespace Metamodel.Graph

/-- The order of edges by source, then by property. -/
def compareEdges (a b : Edge) : Ordering :=
  (Text.collate a.source.qualifiedName b.source.qualifiedName).then
    (Text.collate a.property.name b.property.name)

/-- The edge as an object of names. -/
def edgeJson (e : Edge) : Json :=
  .object
    [("source", .string e.source.qualifiedName), ("target", .string e.target.qualifiedName),
      ("property", .string e.property.name),
      ("cardinality", cardinalityJson e.property.cardinality)]

/-- The graph as an object. -/
def toJson (g : Graph) : Json :=
  .object
    [("schema", .string "entity-graph-v1"),
      ("entities", .array ((Text.collatedBy Entity.qualifiedName g.nodes).map (·.toJson))),
      ("relationships",
        .array ((g.edges.mergeSort fun a b => (compareEdges a b).isLE).map edgeJson))]

/-- The graph as a text that depends on nothing but its contents. -/
def serialize (g : Graph) : String :=
  Json.stableText g.toJson 2

end Metamodel.Graph
