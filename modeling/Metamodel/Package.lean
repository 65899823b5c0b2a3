import Metamodel.Path
import Metamodel.Text.Split

/-!
# Packages

The package of a file is its directory with dots between the segments; the directory of a package
has its parts as segments. A type is known by its name within its package.
-/

namespace Metamodel

/-- The directory of a package. -/
def packageDirectory (packageName : String) : String :=
  if packageName = "" then "" else Path.ofSegments (Text.splitText '.' packageName)

/-- The package of a file: the segments of its directory, with dots between them. -/
def packageOfFile (file : String) : String :=
  let directory := Path.directory (Path.withSlashes file)
  if directory = "." then "" else ".".intercalate ((Path.segments directory).filter (· ≠ ""))

/-- The name of a type within a package. -/
def qualify (packageName simpleName : String) : String :=
  if packageName = "" then simpleName else packageName ++ "." ++ simpleName

end Metamodel
