import Metamodel.Declaration.Schema
import Metamodel.FileTree
import Metamodel.Json.Parser

/-!
# Declaration files

A declaration set may be supplied as a file, which must hold one value of the schema.
-/

namespace Metamodel

/-- The value of the declaration file at a path. -/
def loadDeclarationSet (t : FileTree) (file : String) : Except DeclarationsError Json :=
  match t.read file with
  | .error e => .error (.unreadable file e.message)
  | .ok text =>
    match Json.parse? text with
    | none => .error (.notJson file)
    | some v => parseDeclarationSet v (some file)

end Metamodel
