/-!
# Log entries

What a run says about its progress, and the two ways in which it is shown: as lines with the level
in front, or on a console, where progress and causes appear only when it is verbose.
-/

namespace Metamodel

/-- The weight of a log entry. -/
inductive LogLevel where
  | info
  | warn
  | error
  deriving DecidableEq

def LogLevel.text : LogLevel → String
  | .info => "info"
  | .warn => "warn"
  | .error => "error"

/-- A message, with the text of its cause where there is one. -/
structure LogEntry where
  level : LogLevel
  message : String
  cause : Option String
  deriving DecidableEq

namespace LogEntry

def info (message : String) : LogEntry := ⟨.info, message, none⟩

def warn (message : String) : LogEntry := ⟨.warn, message, none⟩

def error (message : String) : LogEntry := ⟨.error, message, none⟩

/-- The entry as a line with its level. -/
def line (e : LogEntry) : String :=
  e.level.text ++ " " ++ e.message

end LogEntry

/-- The stream of a console line. -/
inductive ConsoleStream where
  /-- standard output -/
  | log
  | warn
  | error
  deriving DecidableEq

def ConsoleStream.text : ConsoleStream → String
  | .log => "log"
  | .warn => "warn"
  | .error => "error"

/-- The lines that an entry puts on the console. -/
def LogEntry.consoleLines (verbose : Bool) (e : LogEntry) : List (ConsoleStream × String) :=
  match e.level with
  | .info => if verbose then [(.log, e.message)] else []
  | .warn => [(.warn, e.message)]
  | .error =>
    (.error, e.message) ::
      match e.cause with
      | some cause => if verbose then [(.error, cause)] else []
      | none => []

end Metamodel
