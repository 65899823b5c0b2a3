import Metamodel.Diagnostic
import Metamodel.Graph.Basic
import Metamodel.ReservedWords

/-!
# Graph validation

The structural checks of a graph: every check looks at every node, and the dangling edges come
last.
-/

namespace Metamodel.Graph

/-- A finding about a node. -/
def nodeFinding (e : Entity) (code : DiagnosticCode) (severity : Severity) (message : String) :
    Diagnostic :=
  ⟨code, severity, message, some e.qualifiedName, none, e.source⟩

/-- An entity must have a key. -/
def missingKey (e : Entity) : List Diagnostic :=
  if e.kind = .entity ∧ !e.persistentProperties.any (·.isKey) then
    [nodeFinding e .missingKey .error
      ("Entity " ++ e.qualifiedName ++ " must have at least one key property")]
  else []

/-- An entity must not have several versions. -/
def multipleVersion (e : Entity) : List Diagnostic :=
  let versions := e.persistentProperties.filter (·.isVersion)
  if e.kind = .entity ∧ versions.length > 1 then
    [nodeFinding e .multipleVersion .error
      ("Entity " ++ e.qualifiedName ++ " declares more than one version property (" ++
        ", ".intercalate (versions.map (·.name)) ++ ")")]
  else []

/-- Whether the property's cardinality asks for a collection that its type is not. -/
def isMalformedToMany (p : Property) : Bool :=
  p.cardinality.any (·.isToMany) && !p.isCollection

/-- Whether the property is reported on another node, which declares it. -/
def isDeclaredElsewhere (g : Graph) (p : Property) : Bool :=
  p.inheritedFrom.any g.hasNode

/-- A property with a to-many cardinality must be a collection. -/
def toManyNotCollection (g : Graph) (e : Entity) : List Diagnostic :=
  (e.properties.filter fun p => !g.isDeclaredElsewhere p && isMalformedToMany p).map fun p =>
    ⟨.toManyNotCollection, .error,
      ((p.cardinality.map Cardinality.text).getD "") ++ " property " ++ p.name ++ " of " ++
        e.qualifiedName ++ " must be a collection type, not " ++ p.declaredTypeName,
      some e.qualifiedName, some p.name, p.source.or e.source⟩

/-- A node should have properties. -/
def emptyEntity (e : Entity) : List Diagnostic :=
  if e.properties.isEmpty then
    [nodeFinding e .emptyEntity .warning (e.qualifiedName ++ " declares no properties")]
  else []

/-- A writable entity or superclass should store more than a generated key. -/
def loneGeneratedKey (e : Entity) : List Diagnostic :=
  match e.persistentProperties with
  | [only] =>
    if e.kind ≠ .embeddable ∧ !e.isReadOnly ∧ only.isKey ∧ only.isGenerated then
      [⟨.loneGeneratedKey, .warning,
        e.qualifiedName ++ " has only a generated key property " ++ only.name ++
          "; nothing else is persisted", some e.qualifiedName, some only.name, e.source⟩]
    else []
  | _ => []

/-- A table should not have the name of a reserved word. -/
def reservedTableName (e : Entity) : List Diagnostic :=
  if isReservedName e.tableName then
    [nodeFinding e .reservedTableName .warning
      ("Table or view name " ++ e.tableName ++ " may need to be escaped")]
  else []

/-- The findings about a node. -/
def nodeFindings (g : Graph) (e : Entity) : List Diagnostic :=
  missingKey e ++ multipleVersion e ++ g.toManyNotCollection e ++ emptyEntity e ++
    loneGeneratedKey e ++ reservedTableName e

/-- Both ends of an edge must be nodes. -/
def danglingRelationship (g : Graph) (e : Edge) : List Diagnostic :=
  let source := e.source.qualifiedName
  let target := e.target.qualifiedName
  if g.hasNode source && g.hasNode target then []
  else
    let missing := if g.hasNode source then target else source
    [⟨.danglingRelationship, .error,
      "Relationship " ++ source ++ "." ++ e.property.name ++ " refers to " ++ missing ++
        ", which is not in the graph", some source, some e.property.name,
      e.property.source.or e.source.source⟩]

/-- All findings about a graph. -/
def validate (g : Graph) : List Diagnostic :=
  g.nodes.flatMap g.nodeFindings ++ g.edges.flatMap g.danglingRelationship

end Metamodel.Graph
