import Metamodel.Config.Schema
import Metamodel.FileTree
import Metamodel.Json.Parser

/-!
# Configuration files

A project may hold a configuration file under a fixed name; a file that is asked for by its path
must exist. The settings of the file are overlaid by those given with the run.
-/

namespace Metamodel

/-- The name of the file that configures a project. -/
def configFileName : String := "entity-graph.config.json"

/-- The layer of a configuration file, or nothing when there is no such file and none is asked
for. -/
def configFileLayer? (t : FileTree) (projectRoot : String) (asked : Option String) :
    Except ConfigError (Option ConfigLayer) :=
  let file := Path.resolve [projectRoot, asked.getD configFileName]
  if t.contains file then
    match (t.read file).toOption.bind Json.parse? with
    | none => .error (.unreadable file)
    | some v => (parseConfig v (some file)).map fun v => some (ConfigLayer.ofJson v)
  else if asked.isSome then .error (.notFound file)
  else .ok none

/-- The settings of a project: the defaults, the configuration file, the given layer. -/
def loadConfig (t : FileTree) (projectRoot : String) (asked : Option String)
    (given : Option ConfigLayer) : Except ConfigError Config :=
  (configFileLayer? t projectRoot asked).map fun layer =>
    Config.resolve (layer.toList ++ given.toList)

end Metamodel
