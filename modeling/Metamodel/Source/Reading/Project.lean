import Metamodel.Declaration.Basic
import Metamodel.Source.Reading.Member
import Metamodel.SourceFiles

/-!
# Declarations of a project

The classes and interfaces at the top of a project's source files, in the order of the files and of
the texts, as declarations.
-/

namespace Metamodel.Source

mutual

/-- The enumerations in a type, in the order in which they stand. -/
def ResolvedType.enums : ResolvedType → List Origin
  | .enumMember o .. => [o]
  | .enumeration o _ => [o]
  | .list _ element => element.enums
  | .library _ args => ResolvedType.enumsOf args
  | .declared _ args => ResolvedType.enumsOf args
  | .union members => ResolvedType.enumsOf members
  | _ => []

/-- The enumerations in some types. -/
def ResolvedType.enumsOf : List ResolvedType → List Origin
  | [] => []
  | t :: ts => t.enums ++ ResolvedType.enumsOf ts

end

namespace Program

/-- The declarations at the top of the scanned files, each with its file and the file's path in the
project. -/
def typeDeclarations (p : Program) : List (String × String × TypeDeclaration) :=
  p.scanned.flatMap fun f =>
    ((p.text? f.1).map (·.statements)).getD [] |>.filterMap fun st => match st with
      | .type d => some (f.1, f.2, d)
      | _ => none

/-- The context in which the members of a declaration are read. -/
def context (p : Program) (enums : List Origin) (file path : String) (d : TypeDeclaration) :
    ReadingContext :=
  ⟨⟨p, (TypeScope.mk ⟨file, []⟩ []).bind d.typeParameters, enums⟩, path⟩

/-- The enumerations of a program in the order in which its declarations mention them. -/
def enums (p : Program) : List Origin :=
  (ResolvedType.enumsOf (p.typeDeclarations.flatMap fun (file, path, d) =>
    (p.context [] file path d).memberTypes d.members)).eraseDups

/-- The declaration that a class or an interface is. -/
def declaration (p : Program) (c : ReadingContext) (d : TypeDeclaration) : Declaration :=
  let packageName := packageOfFile c.file
  let modifiers : List TypeModifier :=
    (if d.head.has "abstract" then [.abstract] else []) ++
      (if d.head.isSealed then [.sealed] else [])
  let extendedMeanings : List Meaning := if d.kind = .class then [.type, .value] else [.type]
  let superTypes :=
    d.extended.map (p.supertypeRef c.refs.scope extendedMeanings) ++
      d.implemented.map (p.supertypeRef c.refs.scope [.type])
  { packageName := packageName
    simpleName := d.name.getD ""
    qualifiedName := d.name.map (qualify packageName)
    kind := d.kind
    modifiers := if modifiers.isEmpty then none else some modifiers
    annotations :=
      match p.annotations c.refs.scope.site d.head with
      | [] => none
      | as => some as
    superTypes := if superTypes.isEmpty then none else some superTypes
    members := some (c.members d.members)
    source := some (c.location d.head.position) }

/-- The declarations of a program. -/
def declarations (p : Program) : List Declaration :=
  let enums := p.enums
  p.typeDeclarations.map fun (file, path, d) => p.declaration (p.context enums file path d) d

end Program

end Metamodel.Source

namespace Metamodel

/-- Why the declarations of a project cannot be read. -/
inductive ReadingError where
  | files (cause : FileError)
  | settings (cause : Source.SettingsError)

def ReadingError.message : ReadingError → String
  | files cause => cause.message
  | settings cause => cause.message

/-- What was read from a project. -/
structure ProjectReading where
  declarations : List Declaration
  filesScanned : Nat
  /-- the file whose settings were used -/
  settingsFile : Option String

/-- Reads the declarations of the project in a directory. -/
def readProject (t : FileTree) (root : String) (settings : Option String)
    (excludeGlobs : List String) (includeTests : Bool) : Except ReadingError ProjectReading := do
  let files ← (sourceFiles t root excludeGlobs includeTests).mapError .files
  let (s, file) ← (Source.loadSettings t root settings).mapError .settings
  let program := Source.Program.ofFiles t s root files
  pure ⟨program.declarations, files.length, file⟩

end Metamodel
