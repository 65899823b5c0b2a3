import Metamodel.Report.Basic
import Metamodel.Text.Collation

/-!
# Reports as Markdown

A report as a page with a table of counts for nodes and edges and a table of findings. A pipe
within a message is escaped, so that it does not end the cell.
-/

namespace Metamodel.Report

/-- A text with each pipe escaped. -/
def escapeCell (s : String) : String :=
  String.ofList (s.toList.flatMap fun c => if c = '|' then ['\\', '|'] else [c])

/-- What stands before the rows of a table of counts. -/
def countHead (title : String) : List String :=
  ["### " ++ title, "", "| Kind | Count |", "|---|---:|"]

/-- The rows of a table of counts. -/
def countRows (c : Counts) : List String :=
  if c.isEmpty then ["| (none) | 0 |"]
  else (Text.collatedBy Prod.fst c).map fun e => "| " ++ e.1 ++ " | " ++ e.2.text ++ " |"

/-- A table of counts under a title. -/
def countTable (title : String) (c : Counts) : List String :=
  countHead title ++ countRows c ++ [""]

/-- The row of a finding. -/
def diagnosticRow (d : Diagnostic) : String :=
  "| " ++ d.severity.text ++ " | " ++ d.code.text ++ " | " ++ d.locationText ++ " | " ++
    escapeCell d.message ++ " |"

/-- What stands before the rows of the table of findings. -/
def diagnosticHead : List String :=
  ["## Diagnostics", "", "| Severity | Code | Location | Message |", "|---|---|---|---|"]

/-- The rows of the table of findings. -/
def diagnosticRows (ds : List Diagnostic) : List String :=
  if ds.isEmpty then ["| (none) | (none) |  |  |"] else ds.map diagnosticRow

/-- What a page says of the run as a whole. -/
def introLines (r : Report) : List String :=
  let sev := r.diagnosticsBySeverity
  ["# Processing report",
    "",
    "- Tool: **" ++ r.toolName ++ "** " ++ r.toolVersion,
    "- Project root: \x60" ++ r.projectRoot ++ "\x60",
    "- Started: " ++ r.startedAt,
    "- Finished: " ++ r.finishedAt,
    "- Files scanned: **" ++ toString r.filesScanned ++ "**",
    "- Declarations read: **" ++ toString r.declarationsRead ++ "**",
    "- Artifacts written: **" ++ toString r.artifactsWritten ++ "**" ++
      (if r.emitted then "" else " (generation skipped)"),
    "- Diagnostics: **" ++ toString sev.error ++ "** error(s), **" ++ toString sev.warning ++
      "** warning(s), **" ++ toString sev.info ++ "** info",
    "",
    "## Counts",
    ""]

/-- The declarations that could not be built, if there are any. -/
def invalidLines (r : Report) : List String :=
  if r.invalid.isEmpty then []
  else ["## Invalid declarations", ""] ++ r.invalid.map (fun n => "- \x60" ++ n ++ "\x60") ++ [""]

/-- The lines of a report's page. -/
def markdownLines (r : Report) : List String :=
  r.introLines ++
  countTable "Entities by kind" r.entitiesByKind ++
  countTable "Relationships by cardinality" r.relationshipsByCardinality ++
  r.invalidLines ++
  diagnosticHead ++ diagnosticRows r.diagnostics ++ [""]

/-- The report as a page. -/
def markdown (r : Report) : String :=
  "\n".intercalate r.markdownLines

end Metamodel.Report
