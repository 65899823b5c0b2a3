import Metamodel.Path
import Metamodel.Report.Markdown
import Metamodel.Text.CaseMap

/-!
# Report formats

A report file has the JSON form when its name ends in `.json`, and is a Markdown page otherwise.
-/

namespace Metamodel

/-- The form of a report file. -/
inductive ReportFormat where
  | json
  | markdown
  deriving DecidableEq

/-- The form that a file's name asks for. -/
def ReportFormat.ofFile (file : String) : ReportFormat :=
  if Text.lowercase (Path.extension file) = ".json" then .json else .markdown

/-- The report in a form. -/
def Report.render (r : Report) : ReportFormat → String
  | .json => r.serialize
  | .markdown => r.markdown

end Metamodel
