import Metamodel.Config
import Metamodel.Declaration.Json

/-!
# The schema of configurations

A configuration file is one record, all of whose fields may be absent.
-/

namespace Metamodel

open Schema (FieldForm Records)

/-- The fields of a configuration. -/
def configFields : List (FieldForm Unit) :=
  [⟨"jpa", false, .boolean⟩, ⟨"generateAlways", false, .boolean⟩,
    ⟨"generateModel", false, .boolean⟩, ⟨"failOnError", false, .boolean⟩,
    ⟨"classPrefixes", false, .list (.string 1)⟩, ⟨"runtimeModule", false, .string 1⟩]

/-- What is wrong with a value as a configuration. -/
def configProblems (v : Json) : List Schema.Problem :=
  Schema.problems (fun _ => configFields) [] (.record ()) v

/-- Why a configuration could not be read. -/
inductive ConfigError where
  | notFound (file : String)
  | unreadable (file : String)
  | invalid (file : Option String) (problems : List Schema.Problem)
  deriving DecidableEq

def ConfigError.message : ConfigError → String
  | notFound file => "Configuration file not found: " ++ file
  | unreadable file => "Failed to read configuration " ++ file ++ ": malformed text"
  | invalid file problems =>
    "Invalid configuration" ++
      (match file.filter (· ≠ "") with
        | some f => " in " ++ f
        | none => "") ++
      ":\n" ++ "\n".intercalate (problems.map Schema.Problem.line)

/-- The value itself, when it is a configuration. -/
def parseConfig (v : Json) (file : Option String) : Except ConfigError Json :=
  match configProblems v with
  | [] => .ok v
  | ps => .error (.invalid file ps)

namespace ConfigLayer

/-- The settings that a value gives. -/
def ofJson (v : Json) : ConfigLayer where
  jpa := v.field? "jpa" Json.asBool?
  generateAlways := v.field? "generateAlways" Json.asBool?
  generateModel := v.field? "generateModel" Json.asBool?
  failOnError := v.field? "failOnError" Json.asBool?
  classPrefixes := v.field? "classPrefixes" (Json.textsOf? some)
  runtimeModule := v.field? "runtimeModule" Json.asString?

end ConfigLayer

/-- The settings as an object. -/
def Config.toJson (c : Config) : Json :=
  .object
    [("jpa", .bool c.jpa), ("generateAlways", .bool c.generateAlways),
      ("generateModel", .bool c.generateModel), ("failOnError", .bool c.failOnError),
      ("classPrefixes", .strings c.classPrefixes), ("runtimeModule", .string c.runtimeModule)]

end Metamodel
