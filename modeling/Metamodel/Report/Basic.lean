import Metamodel.Diagnostic.Json
import Metamodel.Graph.Basic
import Metamodel.Json.Printer

/-!
# Reports

The account of a run: what it read and wrote, how many nodes and edges of which kinds its graph
has, and its diagnostics in order.
-/

namespace Metamodel

open Decimal

/-- Numbers under names. -/
abbrev Counts := List (String × Binary64)

namespace Counts

/-- Adds an amount to the number of a name, which starts at zero. The prototype's name holds no
number. -/
def increase (c : Counts) (name : String) (amount : Binary64) : Counts :=
  if name = Json.prototypeName then c
  else Json.setMember c name ((c.lookup name).getD (.ofNat 0) + amount)

/-- The counts as an object. -/
def toJson (c : Counts) : Json :=
  .object (c.map fun e => (e.1, .number e.2))

end Counts

/-- Numbers of findings by severity. -/
@[ext]
structure SeverityCounts where
  info : Nat
  warning : Nat
  error : Nat
  deriving DecidableEq

namespace SeverityCounts

/-- One more finding of a severity. -/
def increase (c : SeverityCounts) : Severity → SeverityCounts
  | .info => { c with info := c.info + 1 }
  | .warning => { c with warning := c.warning + 1 }
  | .error => { c with error := c.error + 1 }

/-- The findings counted one after the other. -/
def of (ds : List Diagnostic) : SeverityCounts :=
  ds.foldl (fun c d => c.increase d.severity) ⟨0, 0, 0⟩

def toJson (c : SeverityCounts) : Json :=
  .object [("info", .nat c.info), ("warning", .nat c.warning), ("error", .nat c.error)]

end SeverityCounts

/-- The account of a run. -/
structure Report where
  toolName : String
  toolVersion : String
  projectRoot : String
  startedAt : String
  finishedAt : String
  filesScanned : Nat
  declarationsRead : Nat
  emitted : Bool
  entitiesByKind : Counts
  relationshipsByCardinality : Counts
  diagnosticsBySeverity : SeverityCounts
  artifactsWritten : Nat
  invalid : List String
  diagnostics : List Diagnostic

namespace Report

/-- The report of a run that has just started. -/
def empty (toolName toolVersion projectRoot startedAt : String) : Report where
  toolName := toolName
  toolVersion := toolVersion
  projectRoot := projectRoot
  startedAt := startedAt
  finishedAt := startedAt
  filesScanned := 0
  declarationsRead := 0
  emitted := false
  entitiesByKind := []
  relationshipsByCardinality := []
  diagnosticsBySeverity := ⟨0, 0, 0⟩
  artifactsWritten := 0
  invalid := []
  diagnostics := []

/-- The name under which an edge is counted. -/
def cardinalityName (e : Edge) : String :=
  (e.property.cardinality.map Cardinality.text).getD "NONE"

/-- The report with the graph and the findings of a finished run. -/
def record (r : Report) (graph : Graph) (diagnostics : List Diagnostic) (invalid : List String)
    (emitted : Bool) : Report :=
  { r with
    entitiesByKind :=
      graph.nodes.foldl (fun c e => c.increase e.kind.text (.ofNat 1)) r.entitiesByKind
    relationshipsByCardinality :=
      graph.edges.foldl (fun c e => c.increase (cardinalityName e) (.ofNat 1))
        r.relationshipsByCardinality
    diagnosticsBySeverity := .of diagnostics
    diagnostics := Diagnostic.sorted diagnostics
    invalid := Text.collated invalid
    emitted := emitted }

/-- The report of a run that has finished. -/
def finish (r : Report) (finishedAt : String) : Report :=
  { r with finishedAt := finishedAt }

/-- The report as an object. -/
def toJson (r : Report) : Json :=
  .object
    [("schema", .string "processing-report-v1"),
      ("tool", .object [("name", .string r.toolName), ("version", .string r.toolVersion)]),
      ("projectRoot", .string r.projectRoot), ("startedAtIso", .string r.startedAt),
      ("finishedAtIso", .string r.finishedAt), ("filesScanned", .nat r.filesScanned),
      ("declarationsRead", .nat r.declarationsRead), ("emitted", .bool r.emitted),
      ("counts", .object
        [("entitiesByKind", r.entitiesByKind.toJson),
          ("relationshipsByCardinality", r.relationshipsByCardinality.toJson),
          ("diagnosticsBySeverity", r.diagnosticsBySeverity.toJson),
          ("artifactsWritten", .nat r.artifactsWritten)]),
      ("invalid", .strings r.invalid), ("diagnostics", .array (r.diagnostics.map (·.toJson)))]

/-- The report as a text that depends on nothing but its contents. -/
def serialize (r : Report) : String :=
  Json.stableText r.toJson 2

end Report

end Metamodel
