import Metamodel.CommandLine.Help
import Metamodel.CommandLine.Request

/-!
# Sessions

A call of the program from its arguments to its exit code: 0 on success, 1 for faults of the
command line or the input, 2 for failures of the file system, and 3 when a run found errors and was
asked to fail on them.
-/

namespace Metamodel.CommandLine

/-- Something that the program puts out. -/
inductive Output where
  /-- a page on standard output -/
  | page (text : String)
  /-- something said, on a console that may be verbose -/
  | said (entry : LogEntry) (verbose : Bool)

/-- What a call of the program did. -/
structure Session where
  exitCode : Nat
  output : List Output
  files : FileTree

namespace Session

/-- A session that runs over a project. -/
def ofRun (t : FileTree) (setting : RunSetting) (options : ProjectOptions) (verbose : Bool) :
    Session :=
  let (outcome, s) := (options.run setting).run.run ⟨t, []⟩
  let said := s.log.map (Output.said · verbose)
  match outcome with
  | .ok code => ⟨code, said, s.files⟩
  | .error e =>
    if e.isInputError then ⟨1, said ++ [.said (.error e.message) false], s.files⟩
    else ⟨2, said ++ [.said (.error (toolName ++ " failed: " ++ e.message)) false], s.files⟩

/-- The session of the given arguments. -/
def ofArguments (t : FileTree) (setting : RunSetting) (args : List String) : Session :=
  match Request.ofArguments args with
  | .error e => ⟨1, [.said (.error e.message) false], t⟩
  | .ok .version => ⟨0, [.page (toolVersion ++ "\n")], t⟩
  | .ok .help => ⟨0, [.page helpText], t⟩
  | .ok (.run options verbose) => ofRun t setting options verbose

end Session

end Metamodel.CommandLine
