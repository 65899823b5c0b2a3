import Metamodel.Text.Collation

/-!
# The annotation catalog

Two vocabularies name the same kinds of annotation: the native one, always recognized, and the
standard persistence one. Names that both share belong to the native vocabulary.
-/

namespace Metamodel

/-- The events that call an entity's listeners. -/
inductive LifecycleEvent where
  | preInsert
  | postInsert
  | preUpdate
  | postUpdate
  | preDelete
  | postDelete
  | postLoad
  deriving DecidableEq

namespace LifecycleEvent

def text : LifecycleEvent → String
  | preInsert => "preInsert"
  | postInsert => "postInsert"
  | preUpdate => "preUpdate"
  | postUpdate => "postUpdate"
  | preDelete => "preDelete"
  | postDelete => "postDelete"
  | postLoad => "postLoad"

/-- The events in the order in which listeners are reported. -/
def all : List LifecycleEvent :=
  [preInsert, postInsert, preUpdate, postUpdate, preDelete, postDelete, postLoad]

/-- The event with the given text. -/
def ofText? (s : String) : Option LifecycleEvent :=
  all.find? (·.text == s)

end LifecycleEvent

/-- What an annotation means. -/
inductive AnnotationKind where
  | entity
  | superclass
  | embeddable
  | key
  | generated
  | version
  | nullable
  | transient
  | lazy
  | basic
  | readOnly
  | column
  | table
  | view
  | oneToOne
  | oneToMany
  | manyToOne
  | manyToMany
  | immutable
  | listener (event : LifecycleEvent)
  deriving DecidableEq

namespace AnnotationKind

def text : AnnotationKind → String
  | entity => "entity"
  | superclass => "superclass"
  | embeddable => "embeddable"
  | key => "key"
  | generated => "generated"
  | version => "version"
  | nullable => "nullable"
  | transient => "transient"
  | lazy => "lazy"
  | basic => "basic"
  | readOnly => "readOnly"
  | column => "column"
  | table => "table"
  | view => "view"
  | oneToOne => "oneToOne"
  | oneToMany => "oneToMany"
  | manyToOne => "manyToOne"
  | manyToMany => "manyToMany"
  | immutable => "immutable"
  | listener e => e.text

/-- All kinds of annotation. -/
def all : List AnnotationKind :=
  [entity, superclass, embeddable, key, generated, version, nullable, transient, lazy, basic,
    readOnly, column, table, view, oneToOne, oneToMany, manyToOne, manyToMany, immutable] ++
    LifecycleEvent.all.map listener

/-- The kind with the given text. -/
def ofText? (s : String) : Option AnnotationKind :=
  all.find? (·.text == s)

end AnnotationKind

/-- The vocabulary that a name belongs to. -/
inductive Dialect where
  | native
  | standard
  deriving DecidableEq

def Dialect.text : Dialect → String
  | .native => "native"
  | .standard => "standard"

/-- A recognized annotation name. -/
structure CatalogEntry where
  name : String
  kind : AnnotationKind
  dialect : Dialect
  deriving DecidableEq

/-- The recognized annotation names. -/
structure Catalog where
  entries : List CatalogEntry

namespace Catalog

/-- The names of the native vocabulary. -/
def native : List CatalogEntry :=
  [("Entity", .entity), ("Superclass", .superclass), ("Embedded", .embeddable), ("Key", .key),
    ("Generated", .generated), ("Version", .version), ("Nullable", .nullable),
    ("Transient", .transient), ("Lazy", .lazy), ("ReadOnly", .readOnly), ("Column", .column),
    ("Table", .table), ("View", .view), ("OneToOne", .oneToOne), ("OneToMany", .oneToMany),
    ("ManyToOne", .manyToOne), ("ManyToMany", .manyToMany), ("Immutable", .immutable),
    ("Value", .immutable), ("Data", .immutable), ("AutoValue", .immutable),
    ("PreInsert", .listener .preInsert), ("PostInsert", .listener .postInsert),
    ("PreUpdate", .listener .preUpdate), ("PostUpdate", .listener .postUpdate),
    ("PreDelete", .listener .preDelete), ("PostDelete", .listener .postDelete),
    ("PostLoad", .listener .postLoad)].map fun e => ⟨e.1, e.2, .native⟩

/-- The names that only the standard vocabulary has. -/
def standard : List CatalogEntry :=
  [("MappedSuperclass", .superclass), ("Embeddable", .embeddable), ("Id", .key),
    ("GeneratedValue", .generated), ("Basic", .basic), ("PrePersist", .listener .preInsert),
    ("PostPersist", .listener .postInsert), ("PreRemove", .listener .preDelete),
    ("PostRemove", .listener .postDelete)].map fun e => ⟨e.1, e.2, .standard⟩

/-- The catalog, with or without the standard vocabulary. -/
def create (withStandard : Bool) : Catalog :=
  ⟨native ++ if withStandard then standard else []⟩

/-- The entry of a name. -/
def lookup? (c : Catalog) (name : String) : Option CatalogEntry :=
  c.entries.find? (·.name == name)

/-- All recognized names, in dictionary order. -/
def names (c : Catalog) : List String :=
  Text.collated (c.entries.map (·.name))

end Catalog

end Metamodel
