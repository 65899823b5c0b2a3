import Metamodel.Annotation.Mark
import Metamodel.Declaration.Basic
import Metamodel.Text.Blank

/-!
# Sources of declarations

A source knows a list of declarations, recognizes annotations by a catalog, and supplies the
members of a declaration on demand, which can fail. Declarations are found by qualified name; of
several with one name the first is found.
-/

namespace Metamodel

/-- Why a source could not supply members: an error with its message, or a bare text. -/
inductive SupplyFailure where
  | error (message : String)
  | text (content : String)
  deriving DecidableEq

def SupplyFailure.message : SupplyFailure → String
  | .error m => m
  | .text t => t

/-- A source of declarations. -/
structure DeclarationSource where
  declarations : List Declaration
  catalog : Catalog
  members : Declaration → Except SupplyFailure (List Member)

/-- The qualified name, unless it is missing or blank. -/
def Declaration.knownName? (d : Declaration) : Option String :=
  d.qualifiedName.filter (!Text.isBlankText ·)

/-- The qualified name, or else the simple name, or a stand-in when that is empty too. -/
def Declaration.label (d : Declaration) : String :=
  match d.knownName? with
  | some name => name
  | none => if d.simpleName = "" then "<anonymous>" else d.simpleName

namespace DeclarationSource

/-- The source of records that hold their members. -/
def ofDeclarations (declarations : List Declaration) (catalog : Catalog) : DeclarationSource where
  declarations := declarations
  catalog := catalog
  members := fun d => .ok (d.members.getD [])

/-- The marks of a declaration. -/
def typeMarks (s : DeclarationSource) (d : Declaration) : List Mark :=
  marksOf s.catalog (d.annotations.getD [])

/-- The first declaration of a qualified name. -/
def find? (s : DeclarationSource) (name : String) : Option Declaration :=
  if name = "" then none else s.declarations.find? (·.qualifiedName == some name)

/-- The declaration that a reference points at, when the source has it. -/
def declarationOf? (s : DeclarationSource) (ref : TypeRef) : Option Declaration :=
  if ref.kind = .named then s.find? ref.name else none

end DeclarationSource

end Metamodel
