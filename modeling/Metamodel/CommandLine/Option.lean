/-!
# Options

The options that the program takes: their names, what they take as a value, and how the help
describes them.
-/

namespace Metamodel.CommandLine

/-- What an option takes. -/
inductive Argument where
  | none
  /-- the next word, whatever it is -/
  | required (name : String)
  /-- the next word, unless that is an option -/
  | optional (name : String)
  /-- the next word, and all words up to the next option -/
  | several (name : String)
  deriving DecidableEq

/-- The argument as it is written behind the option. -/
def Argument.usage : Argument → String
  | none => ""
  | required name => " <" ++ name ++ ">"
  | optional name => " [" ++ name ++ "]"
  | several name => " <" ++ name ++ "...>"

/-- An option of the program. -/
inductive OptionName where
  | version
  | source
  | out
  | declarations
  | tsconfig
  | config
  | exclude
  | includeTests
  | report
  | graph
  | withoutJpa
  | generateAlways
  | generateModel
  | failOnError
  | verbose
  deriving DecidableEq

namespace OptionName

/-- The options in the order of the help. -/
def all : List OptionName :=
  [version, source, out, declarations, tsconfig, config, exclude, includeTests, report, graph,
    withoutJpa, generateAlways, generateModel, failOnError, verbose]

/-- The name without its dashes. -/
def text : OptionName → String
  | version => "version"
  | source => "source"
  | out => "out"
  | declarations => "declarations"
  | tsconfig => "tsconfig"
  | config => "config"
  | exclude => "exclude"
  | includeTests => "include-tests"
  | report => "report"
  | graph => "graph"
  | withoutJpa => "no-jpa"
  | generateAlways => "generate-always"
  | generateModel => "generate-model"
  | failOnError => "fail-on-error"
  | verbose => "verbose"

/-- The letter that may stand for the name. -/
def letter? : OptionName → Option Char
  | version => some 'V'
  | verbose => some 'v'
  | _ => none

/-- What the option takes. No option with a letter takes anything. -/
def argument : OptionName → Argument
  | source | tsconfig => .required "path"
  | out => .required "dir"
  | declarations | config | report | graph => .required "file"
  | exclude => .several "glob"
  | includeTests | generateAlways | generateModel | failOnError => .optional "bool"
  | version | withoutJpa | verbose => .none

/-- Whether a run needs the option. -/
def isMandatory : OptionName → Bool
  | source | out => true
  | _ => false

/-- What the help says about the option. -/
def description : OptionName → String
  | version => "output the version number"
  | source => "Project root to read declarations from"
  | out => "Directory generated sources are written to"
  | declarations => "Read a JSON declaration set instead of the TypeScript sources"
  | tsconfig => "Explicit tsconfig.json selection (overrides auto)"
  | config => "Configuration file (default entity-graph.config.json in --source)"
  | exclude => "Repeatable exclude globs (relative to --source) (default: [])"
  | includeTests => "Include test files (default false)"
  | report => "Processing report (.json for JSON, anything else Markdown)"
  | graph => "Write the assembled entity graph as JSON"
  | withoutJpa => "Do not recognize the standard persistence annotations"
  | generateAlways => "Emit even when errors are found (default true)"
  | generateModel => "Emit a Models registry per package (default true)"
  | failOnError => "Exit with code 3 when errors are found (default false)"
  | verbose => "Verbose logging (default: false)"

/-- The word that names the option. -/
def word (o : OptionName) : String :=
  "--" ++ o.text

/-- The short word for the option, where it has one. -/
def shortWord? (o : OptionName) : Option String :=
  o.letter?.map fun c => String.ofList ['-', c]

/-- The option as the help and the messages write it. -/
def usage (o : OptionName) : String :=
  ((o.shortWord?.map (· ++ ", ")).getD "") ++ o.word ++ o.argument.usage

/-- The option that a word names. -/
def ofWord? (w : String) : Option OptionName :=
  all.find? fun o => o.word == w || o.shortWord? == some w

end OptionName

/-- The words that ask for help. -/
def helpWords : List String := ["-h", "--help"]

end Metamodel.CommandLine
