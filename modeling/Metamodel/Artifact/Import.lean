import Metamodel.Artifact.Basic
import Metamodel.Text.Collation

/-!
# Import lines

A generated file requests names from modules; `Import.collect` gives one line for the values and
one for the types of each module. The lines of the runtime module come first, then those of other
modules in dictionary order, values before types; the names of a line are in dictionary order.
-/

namespace Metamodel

/-- A name that a generated file needs from a module. -/
structure ImportRequest where
  module : String
  name : String
  typeOnly : Bool
  deriving DecidableEq

namespace Import

/-- Takes a request into the lines so far. -/
def addRequest (lines : List Import) (r : ImportRequest) : List Import :=
  if lines.any fun l => l.module == r.module && l.typeOnly == r.typeOnly then
    lines.map fun l =>
      if l.module == r.module && l.typeOnly == r.typeOnly && !l.names.contains r.name then
        { l with names := l.names ++ [r.name] }
      else l
  else lines ++ [⟨r.module, [r.name], r.typeOnly⟩]

/-- The order of import lines. -/
def compareLines (runtimeModule : String) (a b : Import) : Ordering :=
  ((compare (a.module != runtimeModule) (b.module != runtimeModule)).then
    (Text.collate a.module b.module)).then (compare a.typeOnly b.typeOnly)

/-- The import lines for all requests of a file. -/
def collect (runtimeModule : String) (requests : List ImportRequest) : List Import :=
  let lines := requests.foldl addRequest []
  (lines.map fun l => { l with names := Text.collated l.names }).mergeSort fun a b =>
    (compareLines runtimeModule a b).isLE

end Import

end Metamodel
