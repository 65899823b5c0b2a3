import Metamodel.Annotation.Mark
import Metamodel.Entity.Naming

/-!
# Properties of members

`extractProperty?` gives the property that a member maps to, if it maps to one: private and
static members do not, nor do methods that are no getters, members without a value, transient
members of classes, and members of immutable types that return the type itself.
-/

namespace Metamodel

/-- What matters about the type that owns a member. -/
structure Owner where
  qualifiedName : String
  isInterface : Bool
  isImmutable : Bool

/-- The cardinalities that marks declare, in priority order. -/
def declaredCardinalities (marks : List Mark) : List Cardinality :=
  Cardinality.byPriority.filter fun c => hasMark marks c.mark

/-- Whether the name is that of a positional component, `component1` and so on. -/
def isComponentName (name : String) : Bool :=
  match Naming.after? "component".toList name.toList with
  | some ds => !ds.isEmpty && ds.all Char.isDigit
  | none => false

/-- The property name of a member that can be mapped: its own, or for a method without parameters
the one that its getter name stands for. -/
def Member.propertyName? (m : Member) : Option String :=
  if isComponentName m.name then none
  else if m.kind ≠ .method then some m.name
  else if m.parameterCount.getD 0 ≠ 0 then none
  else Naming.propertyOfGetter? m.name

/-- Whether the type is a container of single values. -/
def TypeRef.isCollection (t : TypeRef) : Bool :=
  t.kind == .container && t.container != some .map

/-- Whether the type is a container of values under keys. -/
def TypeRef.isMap (t : TypeRef) : Bool :=
  t.kind == .container && t.container == some .map

/-- The marks of a member. -/
def Member.marks (m : Member) (catalog : Catalog) : List Mark :=
  marksOf catalog (m.annotations.getD [])

/-- Whether a member of this type copies an immutable owner. -/
def Owner.isCopiedBy (o : Owner) (type : TypeRef) : Bool :=
  o.isImmutable && type.kind == .named && type.name == o.qualifiedName

/-- The property of a name that a member with the given marks maps to. -/
def Member.toProperty (m : Member) (name : String) (marks : List Mark) : Property :=
  let column := findMark? marks .column
  let basic := findMark? marks .basic
  { name
    memberName := m.name
    columnName := (column.bind Mark.givenName?).getD name
    declaredTypeName := m.type.display
    type := m.type
    memberKind := m.kind
    isKey := hasMark marks .key
    isGenerated := hasMark marks .generated
    isVersion := hasMark marks .version
    isNullable := hasMark marks .nullable || m.type.nullable == some true || m.has .optional ||
      (column.bind (·.getBoolean? "nullable")) == some true
    isTransient := hasMark marks .transient
    isLazy := hasMark marks .lazy ||
      (basic.bind (·.getString? "fetch")).map Text.uppercase == some "LAZY"
    isReadOnly := hasMark marks .readOnly || m.has .readonly
    isCollection := m.type.isCollection
    isMap := m.type.isMap
    cardinality := (declaredCardinalities marks).head?
    inheritedFrom := none
    source := m.source }

/-- The property that a member maps to. -/
def extractProperty? (catalog : Catalog) (m : Member) (owner : Owner) : Option Property :=
  if m.has .private || m.has .static then none
  else
    match m.propertyName? with
    | none => none
    | some name =>
      let marks := m.marks catalog
      if name = "" then none
      else if m.type.kind = .void then none
      else if owner.isCopiedBy m.type then none
      else if hasMark marks .transient && !owner.isInterface then none
      else some (m.toProperty name marks)

end Metamodel
