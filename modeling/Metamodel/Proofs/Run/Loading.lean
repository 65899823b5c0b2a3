import Metamodel.Proofs.Artifact.Loading
import Metamodel.Proofs.Run.Files

/-!
# Loading the metadata of a run

The metadata that a run writes can be loaded: what a run knows of names rules out that an attribute is
added twice. The type that is loaded is that of the node (`load_process`).
-/

namespace Metamodel

/-- The type at run time is that of the mapped type, with the given attributes of its properties. -/
structure EntityType.Describes (t : EntityType String String) (e : Entity)
    (attributeOf : Property → Attribute) : Prop where
  name : t.name = e.qualifiedName
  tableName : t.tableName = e.tableName
  isReadOnly : t.isReadOnly = e.isReadOnly
  isStateless : t.isStateless = e.isStateless
  isImmutable : t.isImmutable = e.isImmutable
  factory : t.factory = if e.hasImplementation then some e.implementationClass else none
  attributes : t.attributes = e.persistentProperties.map attributeOf
  attributeNames : t.attributeNames = e.persistentProperties.map (·.name)
  keyAttributes : t.keyAttributes = (e.persistentProperties.filter (·.isKey)).map attributeOf
  found : ∀ p ∈ e.persistentProperties, t.attribute? p.name = some (attributeOf p)
  absent : ∀ name, (∀ p ∈ e.persistentProperties, p.name ≠ name) → t.attribute? name = none
  shape : ∀ p ∈ e.persistentProperties, ∃ a, t.attribute? p.name = some a ∧ a.shape = p.type.shape
  listeners : t.listeners = e.listeners.map fun l => ⟨l.event, l.methodName⟩

/-- A type is described by what is derived from it. -/
theorem Derivation.describes_entityType (g : Graph) (evaluate : String → Except String String)
    {e : Entity} (h : (e.properties.map Property.name).Nodup) :
    (entityType g evaluate e).Describes e (attributeOf g evaluate e) := by
  have hstored : (e.persistentProperties.map Property.name).Nodup :=
    h.sublist (List.filter_sublist.map _)
  have hnames : (entityType g evaluate e).attributeNames = e.persistentProperties.map (·.name) := by
    show (e.persistentProperties.map (attributeOf g evaluate e)).map _ = _
    rw [List.map_map]
    rfl
  have hdistinct : ((entityType g evaluate e).attributes.map (·.name)).Nodup := by
    show (entityType g evaluate e).attributeNames.Nodup
    rw [hnames]
    exact hstored
  have hfound (p : Property) (hp : p ∈ e.persistentProperties) :
      (entityType g evaluate e).attribute? p.name = some (attributeOf g evaluate e p) :=
    (find?_eq_some_iff hdistinct).2 ⟨List.mem_map_of_mem hp, rfl⟩
  refine
    { name := rfl, tableName := rfl, isReadOnly := rfl, isStateless := rfl, isImmutable := rfl
      factory := rfl, attributes := rfl, attributeNames := hnames, found := hfound, listeners := rfl
      keyAttributes := ?_, absent := fun name hname => ?_
      shape := fun p hp => ⟨_, hfound p hp, rfl⟩ }
  · show (e.persistentProperties.map (attributeOf g evaluate e)).filter _ = _
    rw [List.filter_map]
    rfl
  · refine List.find?_eq_none.2 fun a ha hsame => ?_
    obtain ⟨p, hp, rfl⟩ := List.mem_map.1 ha
    exact hname p hp (eq_of_beq hsame)

namespace Run

variable {s : DeclarationSource} {config : Config} {outDir : String}

/-- The properties of all nodes are named after their members. -/
theorem isNamed_of_mem_nodes {e : Entity} (he : e ∈ (process s config outDir).graph.nodes)
    {p : Property} (hp : p ∈ e.properties) : p.IsNamed := by
  by_cases hkind : e.kind = .entity
  · obtain ⟨d, -, -, hmembers⟩ := exists_declaration_of_mem_builtOf (hkind ▸ mem_builtOf_kind he)
    exact (hmembers p hp).1
  · obtain ⟨d, members, b, -, rfl, hb⟩ := isBuilt_of_mem_builtOf (mem_builtOf_kind he)
    obtain ⟨m, -, hextract⟩ := hb.exists_member hkind hp
    exact (isOf_of_extractProperty? hextract).isNamed

theorem implementationClass_ne_empty {e : Entity}
    (he : e ∈ (process s config outDir).graph.nodes) : e.implementationClass ≠ "" := by
  obtain ⟨d, -, -, -, hentity⟩ := exists_names_of_mem_nodes he
  unfold Entity.implementationClass
  cases hname : e.entityName with
  | none => exact Naming.prefixed_ne_empty (by decide) _
  | some n =>
    rintro rfl
    exact absurd (hentity "" hname) (by decide)

/-- Every metadata class of a run prints the calls that it is loaded with. They never fail and give
the type of its node. -/
theorem load_process {m : MetadataArtifact}
    (hm : .metadata m ∈ (process s config outDir).artifacts)
    (evaluate : String → Except String String) :
    ∃ e ∈ (process s config outDir).graph.nodes,
      m = Derivation.metadata (process s config outDir).graph (deriveOptions config outDir) e ∧
      HasLines (Rendering.metadata m) m.definitions ∧
      ∃ t, m.load evaluate = .ok t ∧
        t.Describes e (Derivation.attributeOf (process s config outDir).graph evaluate e) := by
  obtain ⟨-, e, he, rfl⟩ := metadata_mem_process_iff.1 hm
  have hdistinct := nodup_names_of_mem_nodes he
  refine ⟨e, he, rfl, hasLines_definitions _, _, ?_, Derivation.describes_entityType _ _ hdistinct⟩
  exact Derivation.load_metadata _ _ _ (implementationClass_ne_empty he)
    (fun p hp => isNamed_of_mem_nodes he hp) hdistinct

/-- An order has its own attribute and those it inherits, and calls the method of its class. -/
theorem load_order :
    ∃ m, .metadata m ∈ (Sample.run Sample.declarations).artifacts ∧
      ∃ t, m.load .ok = .ok t ∧ t.name = "shop.Order" ∧
        t.attributeNames = ["total", "id", "changed"] ∧
        t.listeners.map (fun l => (l.event, l.action)) =
          [(.postInsert, "saved"), (.postUpdate, "saved")] ∧
        t.attribute? "missing" = none := by
  obtain ⟨m, hm, hexpected⟩ := Sample.exists_metadata Sample.declarations
    (fun m => m.entity == "shop.Order" && m.attributes.map (·.name) == ["total", "id", "changed"] &&
      m.listeners == [⟨.postInsert, "saved"⟩, ⟨.postUpdate, "saved"⟩]) rfl (by decide +kernel)
  simp only [Bool.and_eq_true, beq_iff_eq] at hexpected
  obtain ⟨⟨hentity, hattributes⟩, hlisteners⟩ := hexpected
  obtain ⟨e, -, rfl, -, t, ht, hdescribes⟩ := load_process hm .ok
  have hnames : e.persistentProperties.map (·.name) = ["total", "id", "changed"] := by
    rw [← hattributes]
    show _ = (e.persistentProperties.map (Derivation.attributeModel _ e)).map _
    rw [List.map_map]
    rfl
  refine ⟨_, hm, t, ht, hdescribes.name.trans hentity, hdescribes.attributeNames.trans hnames, ?_,
    hdescribes.absent "missing" fun p hp hname => ?_⟩
  · have hcalls : (e.listeners.map fun l => (⟨l.event, l.methodName⟩ : ListenerModel)) =
        [⟨.postInsert, "saved"⟩, ⟨.postUpdate, "saved"⟩] := hlisteners
    have hpairs := congrArg (List.map fun l : ListenerModel => (l.event, l.methodName)) hcalls
    rw [List.map_map] at hpairs
    rw [hdescribes.listeners, List.map_map]
    exact hpairs
  · have hmem : p.name ∈ e.persistentProperties.map (·.name) := List.mem_map_of_mem hp
    rw [hnames, hname] at hmem
    exact absurd hmem (by decide)

end Run

end Metamodel
