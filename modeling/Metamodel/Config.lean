/-!
# Configuration

The settings of a run, built up from layers in which later ones win.
-/

namespace Metamodel

/-- The settings of a run. -/
structure Config where
  /-- whether the standard persistence annotations are recognized -/
  jpa : Bool
  /-- whether to emit artifacts in spite of errors -/
  generateAlways : Bool
  /-- whether to emit a registry of the entities of each package -/
  generateModel : Bool
  failOnError : Bool
  /-- what is stripped from the start of class names to get table names -/
  classPrefixes : List String
  /-- the module that generated code imports its runtime support from -/
  runtimeModule : String
  deriving DecidableEq, Inhabited

/-- Settings of which each may be absent. -/
structure ConfigLayer where
  jpa : Option Bool
  generateAlways : Option Bool
  generateModel : Option Bool
  failOnError : Option Bool
  classPrefixes : Option (List String)
  runtimeModule : Option String
  deriving DecidableEq, Inhabited

namespace Config

/-- The prefixes that class names often begin with and table names do not. -/
def defaultClassPrefixes : List String := ["Abstract", "Base"]

def default : Config where
  jpa := true
  generateAlways := true
  generateModel := true
  failOnError := false
  classPrefixes := defaultClassPrefixes
  runtimeModule := "entity-graph-codegen/runtime"

/-- The settings with those of a layer in place of its own. -/
def overlay (c : Config) (layer : ConfigLayer) : Config where
  jpa := layer.jpa.getD c.jpa
  generateAlways := layer.generateAlways.getD c.generateAlways
  generateModel := layer.generateModel.getD c.generateModel
  failOnError := layer.failOnError.getD c.failOnError
  classPrefixes := layer.classPrefixes.getD c.classPrefixes
  runtimeModule := layer.runtimeModule.getD c.runtimeModule

/-- The default settings overlaid with the layers in turn. -/
def resolve (layers : List ConfigLayer) : Config :=
  layers.foldl overlay default

end Config

end Metamodel
