import Mathlib.Data.List.Forall2
import Metamodel.Artifact.Derivation

/-!
# Metadata and implementation of a node

Metadata and implementation are derived apart, each from the declared properties. They agree: the
attributes of the metadata are, one by one and in order, those of the accessors whose properties
are stored (`forall₂_matches`), and the metadata names an implementation class exactly when the
class is made. `artifacts_agree` states this for all files of a graph.
-/

namespace Metamodel

/-- The attribute and the accessor are about one property, and tell the same of it. -/
structure AttributeModel.Matches (a : AttributeModel) (c : AccessorModel) : Prop where
  name : a.name = c.property
  valueType : a.valueType = c.valueType
  stateField : a.stateField = c.stateField
  isReadOnly : a.isReadOnly = true ↔ c.writable = false
  setterName : a.setterName = none ↔ a.isReadOnly = true

/-- The accessors of an entity's properties that are stored. -/
def ImplementationArtifact.persistentAccessors (i : ImplementationArtifact) (e : Entity) :
    List AccessorModel :=
  ((e.properties.zip i.accessors).filter (!·.1.isTransient)).map (·.2)

/-- The files of a node. -/
structure NodeFiles where
  implementation : Option ImplementationArtifact
  metadata : MetadataArtifact

def NodeFiles.artifacts (f : NodeFiles) : List Artifact :=
  (f.implementation.map .implementation).toList ++ [.metadata f.metadata]

/-- The implementation is that of the entity and goes with the metadata. -/
structure ImplementationArtifact.GoesWith (i : ImplementationArtifact) (m : MetadataArtifact)
    (e : Entity) : Prop where
  entity : i.entity = e.qualifiedName
  className : m.implementationClass = some i.className
  properties : i.accessors.map (·.property) = e.properties.map (·.name)
  attributes : List.Forall₂ AttributeModel.Matches m.attributes (i.persistentAccessors e)

/-- The files are those of the entity: the metadata names an implementation exactly when there is
one, which then goes with it. -/
structure NodeFiles.Describe (f : NodeFiles) (e : Entity) : Prop where
  entity : f.metadata.entity = e.qualifiedName
  implementation_iff : f.implementation.isSome ↔ f.metadata.implementationClass.isSome
  goesWith : ∀ i, f.implementation = some i → i.GoesWith f.metadata e

namespace Derivation

variable (g : Graph) (o : DeriveOptions) (e : Entity)

/-- An entity with an implementation is mutable. -/
theorem isImmutable_of_hasImplementation {e : Entity} (h : e.hasImplementation = true) :
    e.isImmutable = false := by
  unfold Entity.hasImplementation at h
  rw [Bool.and_eq_true, Bool.not_eq_true'] at h
  exact h.2

/-- Only what an implementation can write through is writable in the metadata, and conversely. -/
theorem isReadOnlyAttribute_eq {e : Entity} (h : e.hasImplementation = true) (p : Property) :
    isReadOnlyAttribute e p = !(accessor e p).writable := by
  unfold isReadOnlyAttribute accessor
  simp only [isImmutable_of_hasImplementation h, Bool.or_false]
  cases p.isReadOnly <;> cases e.isInterface <;> cases p.memberKind == .method <;> rfl

theorem matches_accessor {e : Entity} (h : e.hasImplementation = true) {p : Property}
    (hp : p.isTransient = false) : (attributeModel g e p).Matches (accessor e p) where
  name := rfl
  valueType := rfl
  stateField := by
    show (if e.tracksState then some p.stateField else none) =
      if e.tracksState && !p.isTransient then some p.stateField else none
    rw [hp, Bool.not_false, Bool.and_true]
  isReadOnly := by
    show isReadOnlyAttribute e p = true ↔ _
    rw [isReadOnlyAttribute_eq h, Bool.not_eq_true']
  setterName := by
    show (if isReadOnlyAttribute e p then none else some (p.setterName e.nameStyle)) = none ↔
      isReadOnlyAttribute e p = true
    cases isReadOnlyAttribute e p <;> simp

theorem persistentAccessors_implementation :
    (implementation o e).persistentAccessors e = e.persistentProperties.map (accessor e) := by
  show ((e.properties.zip (e.properties.map (accessor e))).filter (!·.1.isTransient)).map (·.2) = _
  rw [← List.map_prod_left_eq_zip, List.filter_map, List.map_map]
  rfl

/-- Attributes and accessors of stored properties correspond one to one and in order. -/
theorem forall₂_matches {e : Entity} (h : e.hasImplementation = true) :
    List.Forall₂ AttributeModel.Matches (metadata g o e).attributes
      ((implementation o e).persistentAccessors e) := by
  rw [persistentAccessors_implementation]
  show List.Forall₂ _ (e.persistentProperties.map (attributeModel g e)) _
  rw [List.forall₂_map_left_iff, List.forall₂_map_right_iff, List.forall₂_same]
  intro p hp
  have hkept := (List.mem_filter.1 hp).2
  rw [Bool.not_eq_true'] at hkept
  exact matches_accessor g h hkept

/-- What is derived from a node. -/
def nodeFiles : NodeFiles where
  implementation := if e.hasImplementation then some (implementation o e) else none
  metadata := metadata g o e

theorem artifacts_nodeFiles : (nodeFiles g o e).artifacts = nodeArtifacts g o e := by
  unfold NodeFiles.artifacts nodeFiles nodeArtifacts
  by_cases h : e.hasImplementation = true
  · simp only [if_pos h]
    rfl
  · simp only [if_neg h]
    rfl

theorem describe_nodeFiles : (nodeFiles g o e).Describe e where
  entity := rfl
  implementation_iff := by
    show (if e.hasImplementation then some (implementation o e) else none).isSome ↔
      (if e.hasImplementation then some e.implementationClass else none).isSome
    by_cases h : e.hasImplementation = true
    · rw [if_pos h, if_pos h]
      exact Iff.rfl
    · rw [if_neg h, if_neg h]
      exact Iff.rfl
  goesWith i hi := by
    have hi' : (if e.hasImplementation then some (implementation o e) else none) = some i := hi
    by_cases h : e.hasImplementation = true
    · rw [if_pos h, Option.some.injEq] at hi'
      subst hi'
      refine ⟨rfl, ?_, ?_, forall₂_matches g o h⟩
      · show (if e.hasImplementation then some e.implementationClass else none) = _
        rw [if_pos h]
        rfl
      · show (e.properties.map (accessor e)).map (·.property) = _
        rw [List.map_map]
        rfl
    · rw [if_neg h] at hi'
      cases hi'

/-! ## The artifacts of a graph -/

theorem mem_artifacts_iff {g : Graph} {o : DeriveOptions} {a : Artifact} :
    a ∈ g.artifacts o ↔ (∃ e ∈ g.nodes, a ∈ nodeArtifacts g o e) ∨
      o.generateModel = true ∧ ∃ r ∈ registries o (g.nodes.map (metadata g o)), .registry r = a := by
  unfold Graph.artifacts
  rw [List.mem_append, List.mem_flatMap]
  refine or_congr Iff.rfl ?_
  cases o.generateModel with
  | true => rw [if_pos rfl, List.mem_map, eq_self, true_and]
  | false => simp

theorem mem_nodeArtifacts_iff {g : Graph} {o : DeriveOptions} {e : Entity} {a : Artifact} :
    a ∈ nodeArtifacts g o e ↔
      e.hasImplementation = true ∧ a = .implementation (implementation o e) ∨
        a = .metadata (metadata g o e) := by
  unfold nodeArtifacts
  rw [List.mem_append, List.mem_singleton]
  refine or_congr ?_ Iff.rfl
  cases e.hasImplementation with
  | true => rw [if_pos rfl, List.mem_singleton, eq_self, true_and]
  | false => simp

/-- An implementation is that of a node which has one. -/
theorem implementation_mem_artifacts_iff {g : Graph} {o : DeriveOptions}
    {i : ImplementationArtifact} :
    .implementation i ∈ g.artifacts o ↔
      ∃ e ∈ g.nodes, e.hasImplementation = true ∧ i = implementation o e := by
  rw [mem_artifacts_iff]
  constructor
  · rintro (⟨e, he, hi⟩ | ⟨-, r, -, hr⟩)
    · rcases mem_nodeArtifacts_iff.1 hi with ⟨himpl, heq⟩ | heq
      · exact ⟨e, he, himpl, Artifact.implementation.inj heq⟩
      · cases heq
    · cases hr
  · rintro ⟨e, he, himpl, rfl⟩
    exact Or.inl ⟨e, he, mem_nodeArtifacts_iff.2 (Or.inl ⟨himpl, rfl⟩)⟩

/-- A metadata class is that of a node. -/
theorem metadata_mem_artifacts_iff {g : Graph} {o : DeriveOptions} {m : MetadataArtifact} :
    .metadata m ∈ g.artifacts o ↔ ∃ e ∈ g.nodes, m = metadata g o e := by
  rw [mem_artifacts_iff]
  constructor
  · rintro (⟨e, he, hm⟩ | ⟨-, r, -, hr⟩)
    · rcases mem_nodeArtifacts_iff.1 hm with ⟨-, heq⟩ | heq
      · cases heq
      · exact ⟨e, he, Artifact.metadata.inj heq⟩
    · cases hr
  · rintro ⟨e, he, rfl⟩
    exact Or.inl ⟨e, he, mem_nodeArtifacts_iff.2 (Or.inr rfl)⟩

end Derivation

/-- The files of a graph are those of its nodes in order, and then registries. Each node has
metadata, and it has an implementation exactly when its metadata names one. The implementation has
the name that the metadata gives, and its accessors of stored properties match the attributes. -/
theorem Graph.artifacts_agree (g : Graph) (o : DeriveOptions) :
    ∃ (files : List NodeFiles) (registries : List RegistryArtifact),
      g.artifacts o = files.flatMap NodeFiles.artifacts ++ registries.map .registry ∧
        List.Forall₂ NodeFiles.Describe files g.nodes := by
  refine ⟨g.nodes.map (Derivation.nodeFiles g o), if o.generateModel then
    Derivation.registries o (g.nodes.map (Derivation.metadata g o)) else [], ?_, ?_⟩
  · unfold Graph.artifacts
    rw [List.flatMap_map]
    congr 1
    · exact List.flatMap_congr fun e _ => (Derivation.artifacts_nodeFiles g o e).symm
    · cases o.generateModel <;> rfl
  · rw [List.forall₂_map_left_iff, List.forall₂_same]
    intro e _
    exact Derivation.describe_nodeFiles g o e

end Metamodel
