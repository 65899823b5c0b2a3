import Metamodel.Artifact.Derivation
import Metamodel.Graph.Validation
import Metamodel.Run.Build

/-!
# Processing declarations

A run builds the superclasses among the declarations, then the embeddables, then the entities,
assembles and validates their graph, and derives the artifacts unless errors suppress them. A
declaration that cannot be built is recorded and skipped, so that a run always completes.
-/

namespace Metamodel

/-- The result of a run. -/
structure RunResult where
  graph : Graph
  diagnostics : List Diagnostic
  /-- the labels of the declarations that could not be built -/
  invalid : List String
  artifacts : List Artifact
  /-- whether artifacts were derived -/
  emitted : Bool
  log : List LogEntry

namespace Run

/-- The kinds in the order in which they are built. -/
def kinds : List EntityKind := [.superclass, .embeddable, .entity]

/-- Takes a declaration to the candidates unless one of the same qualified name is there. -/
def addCandidate (found : List Declaration) (d : Declaration) : List Declaration :=
  match d.knownName? with
  | some name => if found.any (·.knownName? == some name) then found else found ++ [d]
  | none => found ++ [d]

/-- The declarations with a marker, of each qualified name the first; those without a qualified
name are kept, so that the build reports them. -/
def candidates (source : DeclarationSource) (marker : AnnotationKind) : List Declaration :=
  (source.declarations.filter fun d => hasMark (source.typeMarks d) marker).foldl addCandidate []

/-- What a run has gathered so far. -/
structure Progress where
  context : Context
  diagnostics : List Diagnostic
  invalid : List String
  log : List LogEntry

/-- Records a declaration that cannot be built, with the reason. -/
def Progress.reject (p : Progress) (d : Declaration) (finding : Diagnostic) : Progress :=
  { p with diagnostics := p.diagnostics ++ [finding], invalid := p.invalid ++ [d.label] }

/-- Records a declaration whose build failed for a reason outside of it. -/
def Progress.fail (p : Progress) (d : Declaration) (message : String) : Progress :=
  { p.reject d ⟨.internalError, .error,
      "Unexpected failure processing " ++ d.label ++ ": " ++ message, some d.label, none,
      d.source⟩ with
    log := p.log ++ [⟨.error, "Failed to process " ++ d.label ++ ": " ++ message, some message⟩] }

/-- Builds one candidate. -/
def step (kind : EntityKind) (p : Progress) (d : Declaration) : Progress :=
  let p := { p with log := p.log ++ buildNotice d kind }
  match buildEntity p.context d kind with
  | .error e =>
    match e.diagnostic? with
    | some finding => p.reject d finding
    | none => p.fail d e.message
  | .ok built =>
    match p.context.define kind built.entity with
    | .error e => p.fail d e.message
    | .ok context => { p with context, diagnostics := p.diagnostics ++ built.diagnostics }

/-- Builds all candidates of all kinds. -/
def build (source : DeclarationSource) (config : Config) : Progress :=
  kinds.foldl (fun p kind => (candidates source kind.marker).foldl (step kind) p)
    ⟨.start source config, [], [], []⟩

/-- Processes the declarations of a source; the output directory is relative to the project. -/
def process (source : DeclarationSource) (config : Config) (outDir : String) : RunResult :=
  let p := build source config
  let graph := Graph.assemble p.context.entities.values p.context.superclasses.values
    p.context.embeddables.values
  let diagnostics := p.diagnostics ++ graph.validate
  let emitted := config.generateAlways || !Diagnostic.hasErrors diagnostics
  { graph
    diagnostics
    invalid := p.invalid
    artifacts :=
      if emitted then graph.artifacts ⟨config.runtimeModule, outDir, config.generateModel⟩ else []
    emitted
    log := p.log ++
      if emitted then [] else
        [.warn "Errors found; generation skipped (generateAlways is off)"] }

/-- The exit code of a finished run: 3 when there are errors and the settings ask to fail on
them. -/
def exitCode (config : Config) (diagnostics : List Diagnostic) : Nat :=
  if config.failOnError && Diagnostic.hasErrors diagnostics then 3 else 0

end Run

end Metamodel
