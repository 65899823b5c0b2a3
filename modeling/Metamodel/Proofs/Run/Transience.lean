import Metamodel.Proofs.Graph.Transience
import Metamodel.Proofs.Run.Binding
import Metamodel.Proofs.Run.Findings
import Metamodel.Proofs.Run.Members

/-!
# Transient properties of a run

Transient properties have no relationships and no attributes, decide no equality, and do not count as
keys or versions (`hidesTransients_process`), whether they are a type's own or inherited. What remains
of each is an accessor that tracks no state. Of the checks of a graph, only those for types without
properties and for the types of to-many relationships look at them.
-/

namespace Metamodel

/-- Relationships, metadata, equality, descriptions and the findings about keys and versions are those
of the types without their transient properties, of which only accessors without state remain. -/
structure RunResult.HidesTransients (r : RunResult) (o : DeriveOptions) : Prop where
  relationships : ∀ edge ∈ r.graph.edges, edge.property.isTransient = false
  metadata : ∀ m, .metadata m ∈ r.artifacts → ∃ e ∈ r.graph.nodes,
    m = Derivation.metadata r.graph o e ∧ m = Derivation.metadata r.graph.stored o e.stored ∧
    m.attributes.map (·.name) = e.persistentProperties.map (·.name) ∧
    ∀ p ∈ e.properties, p.isTransient = true → ∀ a ∈ m.attributes, a.name ≠ p.name
  implementations : ∀ i, .implementation i ∈ r.artifacts → ∃ e ∈ r.graph.nodes,
    i = Derivation.implementation o e ∧
    { i with accessors := e.persistentProperties.map (Derivation.accessor e) } =
      Derivation.implementation o e.stored ∧
    (∃ compared : List Property, compared.Sublist e.persistentProperties ∧
      i.equalityExpressions = compared.map fun p => (Derivation.accessor e p).readExpression) ∧
    i.describedFields =
      e.persistentProperties.map (fun p => (p.name, (Derivation.accessor e p).readExpression)) ∧
    ∀ p ∈ e.properties, p.isTransient = true →
      ∀ a ∈ i.accessors, a.property = p.name → a.stateField = none
  findings : r.diagnostics.filter (·.code ∈ Graph.storedCodes) =
    r.graph.stored.validate.filter (·.code ∈ Graph.storedCodes)

namespace Run

variable {s : DeclarationSource} {config : Config} {outDir : String}

/-- Among the properties of a node, one of the name of a transient one is that one. -/
theorem isTransient_of_name_eq {e : Entity} (he : e ∈ (process s config outDir).graph.nodes)
    {p q : Property} (hp : p ∈ e.properties) (hq : q ∈ e.properties) (hname : q.name = p.name)
    (h : p.isTransient = true) : q.isTransient = true := by
  rw [List.inj_on_of_nodup_map (nodup_names_of_mem_nodes he) hq hp hname]
  exact h

variable (s config outDir)

/-- The graph without transient properties is that of types without transient properties. -/
theorem stored_graph_process : (process s config outDir).graph.stored =
    Graph.assemble ((builtOf s config .entity).map Entity.stored)
      ((builtOf s config .superclass).map Entity.stored)
      ((builtOf s config .embeddable).map Entity.stored) := by
  rw [graph_process, Graph.stored_assemble]

theorem isTransient_edges_process :
    ∀ edge ∈ (process s config outDir).graph.edges, edge.property.isTransient = false := by
  intro edge hedge
  rw [graph_process] at hedge
  exact Graph.isTransient_of_mem_edges hedge

/-- Whatever the source and the settings, a run hides transient properties. -/
theorem hidesTransients_process :
    (process s config outDir).HidesTransients (deriveOptions config outDir) where
  relationships := isTransient_edges_process s config outDir
  metadata := by
    intro m hm
    obtain ⟨-, e, he, rfl⟩ := metadata_mem_process_iff.1 hm
    have hstored := Derivation.metadata_stored (isTransient_edges_process s config outDir)
      (deriveOptions config outDir) e
    refine ⟨e, he, rfl, hstored.symm, ?_, ?_⟩
    · show (e.persistentProperties.map (Derivation.attributeModel _ e)).map _ = _
      rw [List.map_map]
      rfl
    · intro p hp htransient a ha hname
      obtain ⟨q, hq, rfl⟩ := List.mem_map.1 ha
      obtain ⟨hmem, hpersistent⟩ := Entity.mem_persistentProperties_iff.1 hq
      rw [isTransient_of_name_eq he hp hmem hname htransient] at hpersistent
      cases hpersistent
  implementations := by
    intro i hi
    obtain ⟨-, e, he, -, rfl⟩ := implementation_mem_process_iff.1 hi
    refine ⟨e, he, rfl, (Derivation.implementation_stored _ e).symm, ?_, rfl, ?_⟩
    · refine ⟨_, ?_, rfl⟩
      split
      · exact List.Sublist.refl _
      · exact List.filter_sublist
    · intro p hp htransient a ha hname
      obtain ⟨q, hq, rfl⟩ := List.mem_map.1 ha
      exact Derivation.stateField_accessor_of_isTransient e
        (isTransient_of_name_eq he hp hq hname htransient)
  findings := by
    rw [filter_diagnostics_process (by decide), Graph.filter_validate_stored]

end Run

namespace Sample

/-- A type with a transient relationship and, of two versions, a transient one. -/
def basket : Declaration :=
  type .interface "Basket" ["Entity"] []
    [field "id" ["Key"], field "edition" ["Version"], field "draft" ["Version", "Transient"],
      { reference "parent" "shop.Basket" with
        annotations := some [⟨"ManyToOne", none⟩, ⟨"Transient", none⟩] }]

end Sample

example : (Sample.run [Sample.basket]).graph.nodes.flatMap Graph.multipleVersion = [] ∧
    (Sample.run [Sample.basket]).graph.edges.length = 0 ∧
    ((Sample.run [Sample.basket]).graph.nodes.flatMap fun e =>
        e.properties.map fun p => (p.name, (Derivation.accessor e p).stateField)) =
      [("id", some "$id_state"), ("edition", some "$edition_state"), ("draft", none),
        ("parent", none)] := by
  refine ⟨?_, ?_, ?_⟩ <;> with_unfolding_all rfl

end Metamodel
