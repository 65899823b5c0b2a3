import Metamodel.Config.File
import Metamodel.Declaration.File
import Metamodel.Graph.Json
import Metamodel.Artifact.Rendering
import Metamodel.Report.Format
import Metamodel.Run.Process
import Metamodel.Source.Reading.Project

/-!
# Running over a project

A run over a project loads the configuration, reads the declarations, from the sources or from a
declaration set, processes them, and writes the artifacts and, where they are asked for, a report
and the graph. It works on a file tree and notes what it says; what it has written and said before
a failure stays.
-/

namespace Metamodel

/-- The name of the program. -/
def toolName : String := "entity-graph-codegen"

/-- The version of the program. -/
def toolVersion : String := "0.1.0"

/-- What a run over a project is asked to do. -/
structure ProjectOptions where
  /-- the directory of the project -/
  source : String
  /-- the directory of the artifacts -/
  out : String
  /-- the declaration set to read in place of the sources -/
  declarations : Option String
  /-- the settings of the sources -/
  tsconfig : Option String
  /-- the configuration file -/
  config : Option String
  excludeGlobs : List String
  includeTests : Bool
  /-- the file of the report -/
  report : Option String
  /-- the file of the graph -/
  graph : Option String
  /-- settings that win over the configuration file -/
  overrides : ConfigLayer

/-- Where and when a run takes place. -/
structure RunSetting where
  /-- what relative paths are resolved against -/
  directory : String
  startedAt : String
  finishedAt : String

/-- Why a run over a project came to no result. -/
inductive ProjectError where
  | config (cause : ConfigError)
  | declarations (cause : DeclarationsError)
  | reading (cause : ReadingError)
  | writing (cause : FileError)

namespace ProjectError

def message : ProjectError → String
  | config cause => cause.message
  | declarations cause => cause.message
  | reading cause => cause.message
  | writing cause => cause.message

/-- Whether the input is at fault, and not the file system. -/
def isInputError : ProjectError → Bool
  | config _ | declarations _ | reading (.settings _) => true
  | reading (.files _) | writing _ => false

end ProjectError

/-- The files during a run, and what it has said. -/
structure RunState where
  files : FileTree
  log : List LogEntry

/-- A step of a run over a project. -/
abbrev ProjectRun (α : Type) := ExceptT ProjectError (StateM RunState) α

namespace ProjectRun

/-- Says something. -/
def say (entries : List LogEntry) : ProjectRun Unit :=
  modify fun s => { s with log := s.log ++ entries }

/-- Takes the result of something that may fail. -/
def require {ε α : Type} (cause : ε → ProjectError) (result : Except ε α) : ProjectRun α :=
  ExceptT.mk (pure (result.mapError cause))

/-- Writes a file, for which directories are made. -/
def writeFile (path content : String) : ProjectRun Unit := do
  let files ← require .writing ((← get).files.writeWithin path content)
  modify fun s => { s with files }

end ProjectRun

/-- The finding as a log entry of its severity. -/
def Diagnostic.logEntry (d : Diagnostic) : LogEntry :=
  match d.severity with
  | .error => .error d.line
  | .warning => .warn d.line
  | .info => .info d.line

/-- The declarations of a project, and the number of files that they were read from. -/
def ProjectOptions.readDeclarations (o : ProjectOptions) (t : FileTree) (root : String) :
    Except ProjectError (List Declaration × Nat) :=
  match o.declarations with
  | some file =>
    ((loadDeclarationSet t (Path.resolve [root, file])).mapError .declarations).map fun set =>
      (Declaration.listOfSet set, 0)
  | none =>
    ((readProject t root o.tsconfig o.excludeGlobs o.includeTests).mapError .reading).map fun r =>
      (r.declarations, r.filesScanned)

/-- How many there are of something. -/
def countText (n : Nat) (noun : String) : String :=
  toString n ++ " " ++ noun

/-- Runs over a project; the result is the exit code. -/
def ProjectOptions.run (o : ProjectOptions) (setting : RunSetting) : ProjectRun Nat := do
  let resolve := fun (path : String) => Path.resolve [setting.directory, path]
  let root := resolve o.source
  let out := resolve o.out
  let files := (← get).files
  let config ← ProjectRun.require .config (loadConfig files root o.config (some o.overrides))
  let (declarations, filesScanned) ← ProjectRun.require id (o.readDeclarations files root)
  ProjectRun.say [.info ("Read " ++ countText declarations.length "declaration(s) from " ++
    countText filesScanned "file(s)")]
  let source := DeclarationSource.ofDeclarations declarations (.create config.jpa)
  let result := Run.process source config (Path.withSlashes (Path.relative root out))
  ProjectRun.say (result.log ++ (Diagnostic.sorted result.diagnostics).map (·.logEntry))
  for a in result.artifacts do
    ProjectRun.writeFile (Path.resolve [out, a.fileName]) a.render
  ProjectRun.say [.info ("Wrote " ++ countText result.artifacts.length "file(s) to " ++ out)]
  let report := (Report.empty toolName toolVersion root setting.startedAt).record result.graph
    result.diagnostics result.invalid result.emitted
  let report := { report with
    filesScanned, declarationsRead := declarations.length
    artifactsWritten := result.artifacts.length }
  if let some file := o.report then
    let path := resolve file
    ProjectRun.writeFile path
      ((report.finish setting.finishedAt).render (ReportFormat.ofFile path))
    ProjectRun.say [.info ("Wrote report: " ++ file)]
  if let some file := o.graph then
    ProjectRun.writeFile (resolve file) result.graph.serialize
    ProjectRun.say [.info ("Wrote graph: " ++ file)]
  let counts := SeverityCounts.of result.diagnostics
  ProjectRun.say [.info ("Processed " ++ countText result.graph.nodes.length "type(s), " ++
    countText result.graph.edges.length "relationship(s); " ++
    countText counts.error "error(s), " ++ countText counts.warning "warning(s).")]
  pure (Run.exitCode config result.diagnostics)

end Metamodel
