import Metamodel.Annotation.Catalog
import Metamodel.Declaration.Basic

/-!
# Entities

What is known of a mapped type once its declaration is built: its names, its flags, its
properties and its listeners. Superclasses and embeddables have the same form.
-/

namespace Metamodel

/-- How many on each side a relationship joins. -/
inductive Cardinality where
  | oneToOne
  | oneToMany
  | manyToOne
  | manyToMany
  deriving DecidableEq

namespace Cardinality

def text : Cardinality → String
  | oneToOne => "ONE_TO_ONE"
  | oneToMany => "ONE_TO_MANY"
  | manyToOne => "MANY_TO_ONE"
  | manyToMany => "MANY_TO_MANY"

/-- All cardinalities; of several on one member the first in this order counts. -/
def byPriority : List Cardinality := [oneToOne, oneToMany, manyToOne, manyToMany]

/-- The cardinality with the given text. -/
def ofText? (s : String) : Option Cardinality :=
  byPriority.find? (·.text == s)

/-- Whether the other side has many. -/
def isToMany : Cardinality → Bool
  | oneToMany | manyToMany => true
  | oneToOne | manyToOne => false

/-- The kind of annotation that declares the cardinality. -/
def mark : Cardinality → AnnotationKind
  | oneToOne => .oneToOne
  | oneToMany => .oneToMany
  | manyToOne => .manyToOne
  | manyToMany => .manyToMany

end Cardinality

/-- The role of a mapped type. -/
inductive EntityKind where
  | entity
  | superclass
  | embeddable
  deriving DecidableEq, Inhabited

namespace EntityKind

def text : EntityKind → String
  | entity => "ENTITY"
  | superclass => "SUPERCLASS"
  | embeddable => "EMBEDDABLE"

def all : List EntityKind := [entity, superclass, embeddable]

/-- The kind with the given text. -/
def ofText? (s : String) : Option EntityKind :=
  all.find? (·.text == s)

/-- The kind as a word in a message. -/
def label : EntityKind → String
  | entity => "entity"
  | superclass => "superclass"
  | embeddable => "embeddable"

/-- The kind as the first word of a message. -/
def capitalLabel : EntityKind → String
  | entity => "Entity"
  | superclass => "Superclass"
  | embeddable => "Embeddable"

/-- The annotation that marks a declaration as being of the kind. -/
def marker : EntityKind → AnnotationKind
  | entity => .entity
  | superclass => .superclass
  | embeddable => .embeddable

end EntityKind

/-- How the names of getters and setters are formed. -/
inductive NameStyle where
  | bean
  | fluentBean
  | fluent
  | none
  deriving DecidableEq, Inhabited

namespace NameStyle

def text : NameStyle → String
  | bean => "BEAN"
  | fluentBean => "FLUENT_BEAN"
  | fluent => "FLUENT"
  | none => "NONE"

def all : List NameStyle := [bean, fluentBean, fluent, none]

/-- The style with the given text. -/
def ofText? (s : String) : Option NameStyle :=
  all.find? (·.text == s)

end NameStyle

/-- Whether generated members can be seen from outside. -/
inductive Visibility where
  | «public»
  | «private»
  deriving DecidableEq, Inhabited

namespace Visibility

def text : Visibility → String
  | «public» => "PUBLIC"
  | «private» => "PRIVATE"

def all : List Visibility := [«public», «private»]

/-- The visibility with the given text. -/
def ofText? (s : String) : Option Visibility :=
  all.find? (·.text == s)

end Visibility

/-- A property of a mapped type. -/
structure Property where
  name : String
  /-- the member's name as declared -/
  memberName : String
  columnName : String
  declaredTypeName : String
  type : TypeRef
  memberKind : MemberKind
  isKey : Bool
  isGenerated : Bool
  isVersion : Bool
  isNullable : Bool
  isTransient : Bool
  isLazy : Bool
  isReadOnly : Bool
  isCollection : Bool
  isMap : Bool
  cardinality : Option Cardinality
  /-- the qualified name of the ancestor that declares the property -/
  inheritedFrom : Option String
  source : Option Location
  deriving Inhabited

/-- The property as a descendant has it. -/
def Property.inherited (p : Property) (ancestor : String) : Property :=
  { p with inheritedFrom := some (p.inheritedFrom.getD ancestor) }

/-- A method without parameters that is called when an event occurs. -/
structure Listener where
  event : LifecycleEvent
  methodName : String
  /-- the qualified name of the ancestor that declares the method -/
  inheritedFrom : Option String
  deriving DecidableEq

/-- The listener as a descendant has it. -/
def Listener.inherited (l : Listener) (ancestor : String) : Listener :=
  { l with inheritedFrom := some (l.inheritedFrom.getD ancestor) }

/-- A mapped type. -/
structure Entity where
  packageName : String
  simpleName : String
  qualifiedName : String
  tableName : String
  /-- the name given to the generated implementation class -/
  entityName : Option String
  kind : EntityKind
  isAbstract : Bool
  isInterface : Bool
  isImmutable : Bool
  isReadOnly : Bool
  isStateless : Bool
  isView : Bool
  nameStyle : NameStyle
  visibility : Visibility
  properties : List Property
  /-- own listeners before inherited ones -/
  listeners : List Listener
  source : Option Location
  deriving Inhabited

namespace Entity

/-- The properties that make up the key. -/
def keyProperties (e : Entity) : List Property :=
  e.properties.filter (·.isKey)

/-- The properties that are stored. -/
def persistentProperties (e : Entity) : List Property :=
  e.properties.filter (!·.isTransient)

end Entity

end Metamodel
