import Metamodel.Entity.Basic

/-!
# Entity graphs

The mapped types of a run as nodes, and their relationships as edges. `Graph.assemble` makes one
edge for each persistent relationship property whose target is an entity, or else a superclass,
of the run; other relationship properties stay without an edge.
-/

namespace Metamodel

/-- A property together with the type that has it. -/
structure OwnedProperty where
  owner : Entity
  property : Property

/-- A relationship. -/
structure Edge where
  source : Entity
  target : Entity
  property : Property

/-- The mapped types of a run with their properties and relationships. -/
structure Graph where
  nodes : List Entity
  properties : List OwnedProperty
  edges : List Edge

/-- The type that a relationship points at: the element type of a collection with a single type
argument, otherwise the declared type. -/
def relationshipTarget? (type : TypeRef) (isCollection : Bool) : Option TypeRef :=
  if isCollection then
    match type.args with
    | [element] => some element
    | _ => none
  else some type

namespace Graph

/-- The types of which no earlier one has the same qualified name. -/
def distinctNodes (es : List Entity) : List Entity :=
  es.foldl
    (fun acc e => if acc.any (·.qualifiedName == e.qualifiedName) then acc else acc ++ [e]) []

/-- The last of the types that has the name. -/
def lastNamed? (es : List Entity) (name : String) : Option Entity :=
  es.reverse.find? (·.qualifiedName == name)

/-- The type that a relationship property leads to, among entities and superclasses. -/
def targetOf? (entities superclasses : List Entity) (p : Property) : Option Entity :=
  if p.cardinality.isNone || p.isTransient then none
  else
    match (relationshipTarget? p.type p.isCollection).filter (·.kind == .named) with
    | none => none
    | some ref => (lastNamed? entities ref.name).or (lastNamed? superclasses ref.name)

/-- The graph of the types of a run. -/
def assemble (entities superclasses embeddables : List Entity) : Graph :=
  let nodes := distinctNodes (entities ++ superclasses ++ embeddables)
  let properties := nodes.flatMap fun o => o.properties.map (⟨o, ·⟩)
  { nodes
    properties
    edges := properties.filterMap fun op =>
      (targetOf? entities superclasses op.property).map (⟨op.owner, ·, op.property⟩) }

/-- The node of a qualified name. -/
def node? (g : Graph) (name : String) : Option Entity :=
  g.nodes.find? (·.qualifiedName == name)

/-- Whether there is a node of a qualified name. -/
def hasNode (g : Graph) (name : String) : Bool :=
  g.nodes.any (·.qualifiedName == name)

/-- The relationships of a type. -/
def edgesFrom (g : Graph) (name : String) : List Edge :=
  g.edges.filter (·.source.qualifiedName == name)

/-- The relationship of a type's property. -/
def edge? (g : Graph) (owner : String) (property : String) : Option Edge :=
  g.edges.find? fun e => e.source.qualifiedName == owner && e.property.name == property

end Graph

end Metamodel
