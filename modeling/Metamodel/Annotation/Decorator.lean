import Metamodel.Annotation.Catalog

/-!
# Decorators

The annotation names that the runtime module exports as decorators. Decorators do nothing at run
time; they only mark the sources. Three names of other tools are recognized without one.
-/

namespace Metamodel

/-- The recognized names that have no decorator. -/
def undecoratedNames : List String := ["Value", "Data", "AutoValue"]

/-- Whether the name is that of a decorator. -/
def isDecorator (name : String) : Bool :=
  ((Catalog.create true).lookup? name).isSome && !undecoratedNames.contains name

end Metamodel
