import Metamodel.Artifact.Derivation
import Metamodel.Proofs.Graph.Assembly

/-!
# Graphs without transient properties

`Graph.stored` deletes the transient properties of a graph. Deleting them from the types beforehand
gives the same graph (`stored_assemble`). The findings about keys and versions are those of the graph
that is left (`filter_validate_stored`), the metadata classes are the same (`metadata_stored`), and
implementations differ in accessors only (`implementation_stored`).
-/

namespace Metamodel

namespace Entity

/-- The type without its transient properties. -/
def stored (e : Entity) : Entity :=
  { e with properties := e.persistentProperties }

@[simp] theorem qualifiedName_stored (e : Entity) : e.stored.qualifiedName = e.qualifiedName := rfl

@[simp] theorem properties_stored (e : Entity) : e.stored.properties = e.persistentProperties := rfl

@[simp] theorem persistentProperties_stored (e : Entity) :
    e.stored.persistentProperties = e.persistentProperties := by
  unfold persistentProperties
  rw [properties_stored, persistentProperties, List.filter_filter]
  simp

theorem mem_persistentProperties_iff {e : Entity} {p : Property} :
    p ∈ e.persistentProperties ↔ p ∈ e.properties ∧ p.isTransient = false := by
  unfold persistentProperties
  rw [List.mem_filter, Bool.not_eq_true']

end Entity

/-- The property of the type without its transient properties. -/
def OwnedProperty.stored (op : OwnedProperty) : OwnedProperty :=
  ⟨op.owner.stored, op.property⟩

/-- The relationship between the types without their transient properties. -/
def Edge.stored (e : Edge) : Edge :=
  ⟨e.source.stored, e.target.stored, e.property⟩

namespace Graph

/-- The graph without its transient properties. -/
def stored (g : Graph) : Graph where
  nodes := g.nodes.map Entity.stored
  properties := (g.properties.filter (!·.property.isTransient)).map OwnedProperty.stored
  edges := (g.edges.filter (!·.property.isTransient)).map Edge.stored

theorem filter_edges {g : Graph} (h : ∀ edge ∈ g.edges, edge.property.isTransient = false) :
    g.edges.filter (!·.property.isTransient) = g.edges := by
  rw [List.filter_eq_self]
  intro edge hedge
  rw [h edge hedge]
  rfl

/-! ## Assembling what is left -/

section Assembly

variable {es ss ms : List Entity}

theorem lastNamed?_stored (es : List Entity) (name : String) :
    lastNamed? (es.map Entity.stored) name = (lastNamed? es name).map Entity.stored := by
  unfold lastNamed?
  rw [← List.map_reverse, List.find?_map]
  rfl

theorem targetOf?_stored (es ss : List Entity) (p : Property) :
    targetOf? (es.map Entity.stored) (ss.map Entity.stored) p =
      (targetOf? es ss p).map Entity.stored := by
  unfold targetOf?
  simp only [lastNamed?_stored]
  split
  · rfl
  · split
    · rfl
    · rw [Option.map_or]

theorem targetOf?_of_isTransient {p : Property} (h : p.isTransient = true) :
    targetOf? es ss p = none := by
  unfold targetOf?
  rw [h, Bool.or_true, if_pos rfl]

/-- No relationship of an assembled graph has a transient property. -/
theorem isTransient_of_mem_edges {edge : Edge} (h : edge ∈ (assemble es ss ms).edges) :
    edge.property.isTransient = false := by
  obtain ⟨op, -, hop⟩ := List.mem_filterMap.1 h
  obtain ⟨t, ht, rfl⟩ := Option.map_eq_some_iff.1 hop
  rw [← Bool.not_eq_true]
  intro htransient
  rw [targetOf?_of_isTransient htransient] at ht
  cases ht

theorem distinctNodes_stored (es : List Entity) :
    distinctNodes (es.map Entity.stored) = (distinctNodes es).map Entity.stored := by
  rw [distinctNodes_eq, distinctNodes_eq]
  induction es using firstBy_induction Entity.qualifiedName with
  | nil => rfl
  | cons e es ih =>
    rw [List.map_cons, firstBy_cons, firstBy_cons, List.map_cons, List.filter_map]
    exact congrArg (e.stored :: ·) ih

/-- Deleting transient properties goes before assembling as well as after. -/
theorem stored_assemble (es ss ms : List Entity) :
    (assemble es ss ms).stored =
      assemble (es.map Entity.stored) (ss.map Entity.stored) (ms.map Entity.stored) := by
  have hnodes : distinctNodes (es.map Entity.stored ++ ss.map Entity.stored ++ ms.map Entity.stored) =
      (distinctNodes (es ++ ss ++ ms)).map Entity.stored := by
    rw [← List.map_append, ← List.map_append, distinctNodes_stored]
  have hproperties : ((assemble es ss ms).properties.filter (!·.property.isTransient)).map
        OwnedProperty.stored =
      ((distinctNodes (es ++ ss ++ ms)).map Entity.stored).flatMap
        fun o => o.properties.map (⟨o, ·⟩) := by
    unfold assemble
    rw [List.filter_flatMap, List.map_flatMap, List.flatMap_map]
    refine List.flatMap_congr fun o _ => ?_
    rw [List.filter_map, List.map_map]
    rfl
  -- a transient property has no edge before its deletion either
  have hedge (op : OwnedProperty) :
      ((targetOf? es ss op.property).map (⟨op.owner, ·, op.property⟩)).map Edge.stored =
        if !op.property.isTransient then
          (targetOf? (es.map Entity.stored) (ss.map Entity.stored) op.property).map
            (⟨op.owner.stored, ·, op.property⟩)
        else none := by
    cases htransient : op.property.isTransient with
    | true =>
      rw [targetOf?_of_isTransient htransient]
      rfl
    | false =>
      rw [targetOf?_stored, Option.map_map, Option.map_map]
      rfl
  unfold stored
  rw [hproperties, filter_edges fun edge hedge => isTransient_of_mem_edges hedge]
  unfold assemble
  simp only [hnodes, ← hproperties, List.filterMap_map, List.filterMap_filter, List.map_filterMap,
    hedge]
  rfl

end Assembly

/-! ## Findings about what is stored -/

/-- The codes of the findings about keys and versions. -/
def storedCodes : List DiagnosticCode :=
  [.missingKey, .multipleVersion, .loneGeneratedKey]

theorem filter_nodeFindings_storedCodes (g : Graph) (e : Entity) :
    (g.nodeFindings e).filter (·.code ∈ storedCodes) =
      missingKey e ++ multipleVersion e ++ loneGeneratedKey e := by
  rw [filter_nodeFindings]
  simp [storedCodes]

/-- The findings about keys and versions are those of the graph without transient properties. -/
theorem filter_validate_stored (g : Graph) :
    g.validate.filter (·.code ∈ storedCodes) = g.stored.validate.filter (·.code ∈ storedCodes) := by
  have hnode (e : Entity) : missingKey e.stored ++ multipleVersion e.stored ++
      loneGeneratedKey e.stored = missingKey e ++ multipleVersion e ++ loneGeneratedKey e := by
    unfold missingKey multipleVersion loneGeneratedKey
    rw [Entity.persistentProperties_stored]
    rfl
  rw [filter_validate g (by decide), filter_validate g.stored (by decide)]
  simp only [filter_nodeFindings_storedCodes]
  rw [stored, List.flatMap_map]
  exact List.flatMap_congr fun e _ => (hnode e).symm

/-! ## Classes for what is stored -/

theorem edge?_stored {g : Graph} (h : ∀ edge ∈ g.edges, edge.property.isTransient = false)
    (owner property : String) :
    g.stored.edge? owner property = (g.edge? owner property).map Edge.stored := by
  unfold edge? stored
  rw [filter_edges h, List.find?_map]
  rfl

end Graph

namespace Derivation

/-- When no relationship is transient, metadata classes are those of what is stored. -/
theorem metadata_stored {g : Graph} (h : ∀ edge ∈ g.edges, edge.property.isTransient = false)
    (o : DeriveOptions) (e : Entity) : metadata g.stored o e.stored = metadata g o e := by
  have hmodel : attributeModel g.stored e.stored = attributeModel g e := by
    funext p
    unfold attributeModel
    rw [Graph.edge?_stored h, Option.map_map]
    rfl
  have hrequests (file : String) :
      attributeRequests g.stored e.stored o file = attributeRequests g e o file := by
    funext p
    unfold attributeRequests
    rw [Graph.edge?_stored h, Entity.qualifiedName_stored]
    cases g.edge? e.qualifiedName p.name <;> rfl
  unfold metadata
  rw [hmodel, Entity.persistentProperties_stored]
  simp only [hrequests]
  rfl

/-- Of the implementation of a type, the transient properties have nothing but their accessors. -/
theorem implementation_stored (o : DeriveOptions) (e : Entity) :
    implementation o e.stored =
      { implementation o e with accessors := e.persistentProperties.map (accessor e) } := by
  unfold implementation
  rw [Entity.persistentProperties_stored]
  rfl

theorem stateField_accessor_of_isTransient (e : Entity) {p : Property} (h : p.isTransient = true) :
    (accessor e p).stateField = none := by
  unfold accessor
  rw [h, Bool.not_true, Bool.and_false]
  rfl

end Derivation

end Metamodel
