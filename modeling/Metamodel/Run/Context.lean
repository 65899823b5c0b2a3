import Metamodel.Config
import Metamodel.Declaration.Source
import Metamodel.Entity.Basic
import Metamodel.Run.Registry

/-!
# Run contexts

What a run works with: the source of declarations, the settings, and the entities built so far.
-/

namespace Metamodel

/-- The state of a run. -/
structure Context where
  source : DeclarationSource
  config : Config
  superclasses : Registry Entity
  embeddables : Registry Entity
  entities : Registry Entity

namespace Context

/-- The state in which a run starts. -/
def start (source : DeclarationSource) (config : Config) : Context where
  source := source
  config := config
  superclasses := .empty "superclass"
  embeddables := .empty "embeddable"
  entities := .empty "entity"

/-- The registry of a kind. -/
def registry (c : Context) : EntityKind → Registry Entity
  | .superclass => c.superclasses
  | .embeddable => c.embeddables
  | .entity => c.entities

/-- The state with another registry of a kind. -/
def setRegistry (c : Context) (kind : EntityKind) (r : Registry Entity) : Context :=
  match kind with
  | .superclass => { c with superclasses := r }
  | .embeddable => { c with embeddables := r }
  | .entity => { c with entities := r }

/-- The state with a built entity in the registry of a kind. -/
def define (c : Context) (kind : EntityKind) (e : Entity) : Except AlreadyDefined Context :=
  ((c.registry kind).define e.qualifiedName e).map (c.setRegistry kind)

/-- The superclass of a name, or else the embeddable of that name. -/
def ancestor? (c : Context) (name : String) : Option Entity :=
  (c.superclasses.get? name).or (c.embeddables.get? name)

end Context

end Metamodel
