import Metamodel.FileTree
import Metamodel.Glob.Basic
import Metamodel.Text.Collation

/-!
# Source files of a project

The source files of a directory are those that the include patterns match and no exclude pattern
matches, neither the file itself nor, where the pattern covers directories, a directory above it.
Names that begin with a dot are hidden. The paths come in the order of collation.
-/

namespace Metamodel

namespace Glob

/-- Whether one of the patterns excludes a path: the path itself, given absolutely too, or a
directory above it. -/
def excludes (gs : List Glob) (root path : List String) : Bool :=
  gs.any fun g =>
    g.admits path || g.admits ("" :: root ++ path) ||
      (g.coversDirectories && ((FileTree.ancestors path).drop 1).any g.admits)

/-- Whether a name is hidden. -/
def isHidden (name : String) : Bool :=
  name.toList.head? == some '.'

end Glob

/-! ## Source files -/

/-- The files that may hold declarations. -/
def sourceIncludes : List String := ["**/*.ts", "**/*.tsx"]

/-- The places of dependencies, of generated files and of files without code of their own. -/
def sourceExcludes : List String :=
  ["**/node_modules/**", "**/dist/**", "**/build/**", "**/coverage/**", "**/.git/**", "**/out/**",
    "**/*.d.ts"]

/-- The places of tests. -/
def testExcludes : List String :=
  ["**/__tests__/**", "**/*.test.*", "**/*.spec.*", "**/test/**", "**/tests/**"]

/-- The paths of the source files under a directory, relative to it and with slashes only. -/
def sourceFiles (t : FileTree) (root : String) (excludeGlobs : List String) (includeTests : Bool) :
    Except FileError (List String) :=
  let includes := sourceIncludes.flatMap Glob.ofText
  let excludes :=
    (sourceExcludes ++ excludeGlobs ++ (if includeTests then [] else testExcludes)).flatMap
      Glob.ofText
  (t.filesUnder root).map fun paths =>
    Text.collated
      ((paths.filter fun p =>
        !p.any Glob.isHidden && includes.any (·.admits p) &&
          !Glob.excludes excludes (Path.resolvedSegments [root]) p).map fun p =>
            Path.withSlashes (Path.ofSegments p))

end Metamodel
