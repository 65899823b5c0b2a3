import Metamodel.Proofs.Artifact.Access
import Metamodel.Proofs.Run.Inheritance
import Metamodel.Proofs.Run.Origin

/-!
# Access to the properties of a run

The implementations of a run give the access that their metadata tells of: every stored property
has its getter, its state field and its setter, for all styles of names, for classes and for
interfaces, and for fields, accessors and getter methods (`implementation_serves`). Of the setters
those are missing that would have the property's own name where no accessor has it
(`Entity.LacksSetter`); the metadata names them all the same (`setter_of_invoice_missing`).
-/

namespace Metamodel

namespace Run

/-- The settings of the derivation of a run. -/
def deriveOptions (config : Config) (outDir : String) : DeriveOptions :=
  ⟨config.runtimeModule, outDir, config.generateModel⟩

section Artifacts

variable {s : DeclarationSource} {config : Config} {outDir : String}

theorem mem_artifacts_process_iff {a : Artifact} :
    a ∈ (process s config outDir).artifacts ↔ (process s config outDir).emitted = true ∧
      a ∈ (process s config outDir).graph.artifacts (deriveOptions config outDir) := by
  rw [artifacts_process]
  cases (process s config outDir).emitted with
  | true => rw [if_pos rfl, eq_self, true_and]; rfl
  | false => simp

theorem metadata_mem_process_iff {m : MetadataArtifact} :
    .metadata m ∈ (process s config outDir).artifacts ↔
      (process s config outDir).emitted = true ∧ ∃ e ∈ (process s config outDir).graph.nodes,
        m = Derivation.metadata (process s config outDir).graph (deriveOptions config outDir) e := by
  rw [mem_artifacts_process_iff, Derivation.metadata_mem_artifacts_iff]

theorem implementation_mem_process_iff {i : ImplementationArtifact} :
    .implementation i ∈ (process s config outDir).artifacts ↔
      (process s config outDir).emitted = true ∧ ∃ e ∈ (process s config outDir).graph.nodes,
        e.hasImplementation = true ∧ i = Derivation.implementation (deriveOptions config outDir) e := by
  rw [mem_artifacts_process_iff, Derivation.implementation_mem_artifacts_iff]

/-- Each implementation of a run is that of a node, and goes with the metadata of that node, which
is the only metadata of its name. It gives access to every stored property as the attribute tells:
the getter is generated or declared, the setter is generated unless it is lacking, and it stores
the value and marks it as modified when the entity tracks state. -/
theorem implementation_serves {i : ImplementationArtifact}
    (hi : .implementation i ∈ (process s config outDir).artifacts) :
    ∃ e ∈ (process s config outDir).graph.nodes, ∃ d ∈ s.declarations, ∃ m,
      i.entity = e.qualifiedName ∧ d.knownName? = some e.qualifiedName ∧
      m.entity = e.qualifiedName ∧ .metadata m ∈ (process s config outDir).artifacts ∧
      (∀ m', .metadata m' ∈ (process s config outDir).artifacts →
        m'.entity = e.qualifiedName → m' = m) ∧
      List.Forall₂ (i.Served e (s.Declares d e.qualifiedName)) e.persistentProperties
        m.attributes := by
  obtain ⟨hemitted, hi⟩ := mem_artifacts_process_iff.1 hi
  obtain ⟨e, he, himpl, rfl⟩ := Derivation.implementation_mem_artifacts_iff.1 hi
  obtain ⟨d, hd, hname, hmembers⟩ :=
    exists_declaration_of_mem_builtOf (mem_builtOf_of_hasImplementation he himpl)
  refine ⟨e, he, d, hd, Derivation.metadata (process s config outDir).graph
    (deriveOptions config outDir) e, rfl, hname, rfl, ?_, ?_, ?_⟩
  · exact mem_artifacts_process_iff.2
      ⟨hemitted, Derivation.metadata_mem_artifacts_iff.2 ⟨e, he, rfl⟩⟩
  · intro m' hm' hentity
    obtain ⟨-, hm'⟩ := mem_artifacts_process_iff.1 hm'
    obtain ⟨e', he', rfl⟩ := Derivation.metadata_mem_artifacts_iff.1 hm'
    rw [(isKeyed_graph_process s config outDir).node_eq he' he hentity]
  · show List.Forall₂ _ e.persistentProperties (e.persistentProperties.map _)
    rw [List.forall₂_map_right_iff, List.forall₂_same]
    intro p hp
    obtain ⟨hnamed, hdeclared⟩ := hmembers p (List.mem_filter.1 hp).1
    exact Derivation.served_attributeModel _ _ hp hnamed hdeclared

end Artifacts

end Run

/-! ## Two runs

The order of the small model is a class with setters. The total of an invoice is read off a getter
method, and the style of names is fluent. -/

namespace Sample

/-- A getter method of a number with the given annotations. -/
def getter (name : String) (annotations : List String) : Member :=
  ⟨name, .method, none, .primitive "number", none, some (annotations.map fun a => ⟨a, none⟩), none⟩

def invoice : Declaration :=
  { type .interface "Invoice" [] [] [getter "getTotal" ["Key"]] with
    annotations := some [⟨"Entity", some [("propertyNameStyle", .string "fluent")]⟩] }

def run (ds : List Declaration) : RunResult :=
  Run.process (.ofDeclarations ds (.create true)) .default "generated"

theorem exists_metadata (ds : List Declaration) (P : MetadataArtifact → Bool)
    (hemitted : (run ds).emitted = true)
    (h : ((run ds).graph.nodes.any fun e =>
      P (Derivation.metadata (run ds).graph (Run.deriveOptions .default "generated") e)) = true) :
    ∃ m, .metadata m ∈ (run ds).artifacts ∧ P m = true := by
  obtain ⟨e, he, hm⟩ := List.any_eq_true.1 h
  exact ⟨_, Run.metadata_mem_process_iff.2 ⟨hemitted, e, he, rfl⟩, hm⟩

theorem exists_implementation (ds : List Declaration) (P : ImplementationArtifact → Bool)
    (hemitted : (run ds).emitted = true)
    (h : ((run ds).graph.nodes.any fun e => e.hasImplementation &&
      P (Derivation.implementation (Run.deriveOptions .default "generated") e)) = true) :
    ∃ i, .implementation i ∈ (run ds).artifacts ∧ P i = true := by
  obtain ⟨e, he, hi⟩ := List.any_eq_true.1 h
  obtain ⟨himpl, hi⟩ := Bool.and_eq_true_iff.1 hi
  exact ⟨_, Run.implementation_mem_process_iff.2 ⟨hemitted, e, he, himpl, rfl⟩, hi⟩

end Sample

namespace Run

theorem implementation_of_order_serves :
    ∃ i, .implementation i ∈ (Sample.run Sample.declarations).artifacts ∧
      i.className = "GeneratedOrder" ∧
      ∃ e ∈ (Sample.run Sample.declarations).graph.nodes, ∃ d ∈ Sample.declarations, ∃ m,
        .metadata m ∈ (Sample.run Sample.declarations).artifacts ∧
        e.persistentProperties.map (·.name) = ["total", "id", "changed"] ∧
        List.Forall₂ (i.Served e ((DeclarationSource.ofDeclarations Sample.declarations
          (.create true)).Declares d e.qualifiedName)) e.persistentProperties m.attributes := by
  have hnodes : ((Sample.run Sample.declarations).graph.nodes.any fun e => e.hasImplementation &&
      e.qualifiedName == "shop.Order" && e.implementationClass == "GeneratedOrder") = true := by
    decide +kernel
  -- for all nodes, because the theorem gives its node by the name only
  have hproperties : ((Sample.run Sample.declarations).graph.nodes.all fun e =>
      e.qualifiedName != "shop.Order" ||
        e.persistentProperties.map (·.name) == ["total", "id", "changed"]) = true := by
    decide +kernel
  obtain ⟨o, ho, horder⟩ := List.any_eq_true.1 hnodes
  simp only [Bool.and_eq_true, beq_iff_eq] at horder
  obtain ⟨⟨himpl, hname⟩, hclass⟩ := horder
  have hi : .implementation (Derivation.implementation (deriveOptions .default "generated") o) ∈
      (Sample.run Sample.declarations).artifacts :=
    mem_artifacts_process_iff.2
      ⟨rfl, Derivation.implementation_mem_artifacts_iff.2 ⟨o, ho, himpl, rfl⟩⟩
  obtain ⟨e, he, d, hd, m, hentity, -, -, hm, -, hserved⟩ := implementation_serves hi
  refine ⟨_, hi, hclass, e, he, d, hd, m, hm, ?_, hserved⟩
  have hnames := List.all_eq_true.1 hproperties e he
  have hsame : e.qualifiedName = "shop.Order" := hentity.symm.trans hname
  rw [hsame] at hnames
  exact eq_of_beq hnames

/-- The metadata of an invoice names a setter for its total, which can be written; but all that is
generated for the total is its getter. -/
theorem setter_of_invoice_missing :
    ∃ i m, .implementation i ∈ (Sample.run [Sample.invoice]).artifacts ∧
      .metadata m ∈ (Sample.run [Sample.invoice]).artifacts ∧ i.entity = m.entity ∧
      m.attributes.map (fun a => (a.name, a.setterName, a.stateField)) =
        [("total", some "total", some "$total_state")] ∧
      i.accessors.map (fun c => (c.property, c.writable)) = [("total", true)] ∧
      i.accessors.flatMap Rendering.accessorLines =
        ["  getTotal(): ReturnType<Invoice['getTotal']> \x7b", "    return this.$total_value;",
          "  \x7d", ""] := by
  have hnodes : ((Sample.run [Sample.invoice]).graph.nodes.any fun e => e.hasImplementation &&
      (Derivation.metadata (Sample.run [Sample.invoice]).graph
          (deriveOptions .default "generated") e).attributes.map
        (fun a => (a.name, a.setterName, a.stateField)) ==
          [("total", some "total", some "$total_state")] &&
      (e.properties.map (Derivation.accessor e)).map (fun c => (c.property, c.writable)) ==
        [("total", true)] &&
      (e.properties.map (Derivation.accessor e)).flatMap Rendering.accessorLines ==
        ["  getTotal(): ReturnType<Invoice['getTotal']> \x7b", "    return this.$total_value;",
          "  \x7d", ""]) = true := by decide +kernel
  obtain ⟨e, he, hinvoice⟩ := List.any_eq_true.1 hnodes
  simp only [Bool.and_eq_true, beq_iff_eq] at hinvoice
  obtain ⟨⟨⟨himpl, hattributes⟩, haccessors⟩, hlines⟩ := hinvoice
  refine ⟨Derivation.implementation (deriveOptions .default "generated") e, _, ?_, ?_, rfl,
    hattributes, haccessors, hlines⟩
  · exact mem_artifacts_process_iff.2
      ⟨rfl, Derivation.implementation_mem_artifacts_iff.2 ⟨e, he, himpl, rfl⟩⟩
  · exact mem_artifacts_process_iff.2 ⟨rfl, Derivation.metadata_mem_artifacts_iff.2 ⟨e, he, rfl⟩⟩

end Run

end Metamodel
