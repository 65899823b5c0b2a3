import Metamodel.Diagnostic
import Metamodel.Entity.Ancestry
import Metamodel.Entity.Extraction
import Metamodel.Log
import Metamodel.Run.Context

/-!
# Building entities

`buildEntity` turns a declaration into an entity, superclass or embeddable. Own members come
first, in the order of their declaration; an entity then takes over the members of those of its
ancestors that have been built before. A declaration without a qualified name, or with an
annotation that refers to an unresolved type, cannot be built (`BuildError`); everything else that
is wrong with it is told in diagnostics.
-/

namespace Metamodel

/-- Why a declaration could not be built. -/
inductive BuildError where
  | missingName (kind : EntityKind) (simpleName : String) (location : Option Location)
  | unresolvedReference (mark key entity type : String) (location : Option Location)
  /-- the source did not supply the members -/
  | supply (failure : SupplyFailure)
  deriving DecidableEq

namespace BuildError

def message : BuildError → String
  | missingName kind simpleName _ =>
    kind.capitalLabel ++ " " ++ (if simpleName = "" then "<anonymous>" else simpleName) ++
      " must have a qualified name"
  | unresolvedReference mark key entity type _ =>
    mark ++ "." ++ key ++ " of " ++ entity ++ " refers to unresolved type " ++ type
  | supply failure => failure.message

/-- The finding that an error of the declaration itself amounts to. -/
def diagnostic? (e : BuildError) : Option Diagnostic :=
  match e with
  | missingName _ simpleName location =>
    some ⟨.missingQualifiedName, .error, e.message,
      if simpleName = "" then none else some simpleName, none, location⟩
  | unresolvedReference _ _ entity _ location =>
    some ⟨.unresolvedAnnotationReference, .error, e.message, some entity, none, location⟩
  | supply _ => none

end BuildError

/-- A built entity and what there is to say about its declaration. -/
structure Built where
  entity : Entity
  diagnostics : List Diagnostic

/-- The listeners that a member declares, in the order of the events. -/
def Member.listeners (m : Member) (catalog : Catalog) : List Listener :=
  if m.kind ≠ .method ∨ m.parameterCount.getD 0 ≠ 0 ∨ m.has .private ∨ m.has .static then []
  else
    (LifecycleEvent.all.filter fun e => hasMark (m.marks catalog) (.listener e)).map
      (⟨·, m.name, none⟩)

/-- The first value of the marks, keys in order, that refers to an unresolved type. -/
def unresolvedReference? (marks : List Mark) : Option (String × String × String) :=
  marks.findSome? fun mark =>
    mark.keys.findSome? fun key =>
      ((mark.getType? key).filter (·.isUnresolved)).map fun ref => (mark.name, key, ref.name)

/-- The value whose text a string is in capitals, or else a default. -/
def pick {α : Type} (ofText? : String → Option α) (text : Option String) (default : α) : α :=
  ((text.bind fun s => ofText? (Text.uppercase s))).getD default

/-- The member's findings as a property that is kept. -/
def keptFindings (catalog : Catalog) (owner : String) (location : Option Location) (m : Member)
    (p : Property) : List Diagnostic :=
  let place := m.source.or location
  let cardinalities := declaredCardinalities (m.marks catalog)
  (if cardinalities.length > 1 then
    [⟨.multipleCardinality, .error, "Property " ++ p.name ++ " of " ++ owner ++
      " declares several relationships (" ++
      ", ".intercalate (cardinalities.map Cardinality.text) ++ ")", some owner, some p.name, place⟩]
  else []) ++
  if p.type.isUnresolved then
    [⟨.unresolvedType, .error, "Type " ++ p.type.name ++ " of " ++ owner ++ "." ++ p.name ++
      " cannot be resolved", some owner, some p.name, place⟩]
  else []

/-- The finding for a member whose property there is already. -/
def droppedFinding (owner : String) (location : Option Location) (m : Member) (p : Property) :
    Diagnostic :=
  ⟨.duplicateMember, .info, "Member " ++ m.name ++ " of " ++ owner ++
    " maps to existing property " ++ p.name ++ "; first declaration kept", some owner, some p.name,
    m.source.or location⟩

/-- Takes one more member to the properties kept so far. -/
def addMember (catalog : Catalog) (owner : Owner) (location : Option Location)
    (acc : List Property × List Diagnostic) (m : Member) : List Property × List Diagnostic :=
  match extractProperty? catalog m owner with
  | none => acc
  | some p =>
    if acc.1.any (·.name == p.name) then
      (acc.1, acc.2 ++ [droppedFinding owner.qualifiedName location m p])
    else (acc.1 ++ [p], acc.2 ++ keptFindings catalog owner.qualifiedName location m p)

/-- The own properties of a type and the findings about its members. -/
def ownProperties (catalog : Catalog) (owner : Owner) (location : Option Location)
    (members : List Member) : List Property × List Diagnostic :=
  members.foldl (addMember catalog owner location) ([], [])

/-- What is said when the build of a declaration begins. -/
def buildNotice (d : Declaration) (kind : EntityKind) : List LogEntry :=
  d.knownName?.toList.map fun name => .info ("Processing " ++ kind.label ++ ": " ++ name)

/-- The name of a type's table: the one given to its table or view, or else the simple name, for
mutable classes without its prefix. -/
def tableNameOf (marks : List Mark) (simpleName : String) (keepsPrefix : Bool)
    (prefixes : List String) : String :=
  let given := ((findMark? marks .table).bind Mark.givenName?).or
    ((findMark? marks .view).bind Mark.givenName?)
  given.getD (if keepsPrefix then simpleName else Naming.removePrefixes simpleName prefixes)

/-- The finding for a supertype that does not resolve. -/
def unresolvedSupertype (owner : String) (location : Option Location) (name : String) :
    Diagnostic :=
  ⟨.unresolvedType, .error, "Supertype " ++ name ++ " of " ++ owner ++ " cannot be resolved",
    some owner, none, location⟩

/-- The entity that a declaration describes. -/
def buildEntity (c : Context) (d : Declaration) (kind : EntityKind) : Except BuildError Built := do
  let catalog := c.source.catalog
  let location := d.source
  let some name := d.knownName? | .error (.missingName kind d.simpleName location)
  let marks := c.source.typeMarks d
  match unresolvedReference? marks with
  | some (mark, key, type) => .error (.unresolvedReference mark key name type location)
  | none =>
    let mark := findMark? marks .entity
    let flag := fun key => mark.bind (·.getBoolean? key)
    let text := fun key => mark.bind (·.getString? key)
    let entityName := (text "name").filter (· ≠ "")
    let nameFindings := (entityName.filter (!Naming.isIdentifier ·)).toList.map fun n =>
      (⟨.invalidEntityName, .error, "Invalid class identifier " ++ n ++ " on " ++ name, some name,
        none, location⟩ : Diagnostic)
    let isInterface := d.isInterface
    let sealed := flag "extendable" == some false || (!isInterface && d.has .sealed)
    let isImmutable := hasMark marks .immutable || sealed || flag "immutable" == some true
    let members ← (c.source.members d).mapError BuildError.supply
    let (own, memberFindings) :=
      ownProperties catalog ⟨name, isInterface, isImmutable⟩ location members
    let ownMembers : Members := ⟨own, members.flatMap (·.listeners catalog)⟩
    let ancestry := Ancestry.of c.source d name
    let inherits := kind == .entity
    let merged :=
      if inherits then ownMembers.mergeAll c.ancestor? ancestry.ancestors else ownMembers
    let ancestryFindings :=
      if inherits then ancestry.unresolved.map (unresolvedSupertype name location) else []
    .ok
      { entity :=
          { packageName := d.packageName
            simpleName := d.simpleName
            qualifiedName := name
            tableName :=
              tableNameOf marks d.simpleName (isInterface || isImmutable) c.config.classPrefixes
            entityName := entityName.filter Naming.isIdentifier
            kind
            isAbstract := d.has .abstract
            isInterface
            isImmutable
            isReadOnly := hasMark marks .readOnly
            isStateless := isImmutable || flag "stateless" == some true
            isView := hasMark marks .view
            nameStyle := pick NameStyle.ofText? (text "propertyNameStyle") .bean
            visibility := pick Visibility.ofText? (text "propertyVisibility") .public
            properties := merged.properties
            listeners := merged.listeners
            source := location }
        diagnostics := nameFindings ++ memberFindings ++ ancestryFindings }

end Metamodel
