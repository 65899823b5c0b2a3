import Metamodel.Proofs.Run.Shadowing

/-!
# Keys of entities

Whether an entity has a key is told by three parts of a run, each by itself: by the check of the graph,
by the attributes of the metadata, and by the equality of the implementation. All of them go by the
stored properties that are keys (`Entity.keys`), so that they agree (`agreesOnKeys_process`). A key
that an ancestor hands down is among these unless an own property has its name (`mem_keys_iff`).
-/

namespace Metamodel

/-- The stored properties that make up the key. -/
def Entity.keys (e : Entity) : List Property :=
  e.persistentProperties.filter (·.isKey)

/-- It is reported that the entity has no key. -/
def RunResult.LacksKey (r : RunResult) (e : Entity) : Prop :=
  ∃ f ∈ r.diagnostics, f.code = .missingKey ∧ f.entity = some e.qualifiedName

/-- The expressions that the accessors of some properties read, in the order of the properties. -/
def ImplementationArtifact.readExpressions (i : ImplementationArtifact) (e : Entity)
    (chosen : Property → Bool) : List String :=
  ((e.properties.zip i.accessors).filter fun x => chosen x.1).map (·.2.readExpression)

/-- An entity has a key attribute in its metadata unless it is reported to have no key. If it has one,
then its implementation compares the stored keys, of which there are some, and otherwise all that is
stored. -/
structure RunResult.AgreesOnKeys (r : RunResult) (e : Entity) : Prop where
  metadata : ∀ m, .metadata m ∈ r.artifacts → m.entity = e.qualifiedName →
    (¬ r.LacksKey e ↔ ∃ a ∈ m.attributes, a.isKey = true)
  keyed : ∀ i, .implementation i ∈ r.artifacts → i.entity = e.qualifiedName → ¬ r.LacksKey e →
    i.equalityExpressions = i.readExpressions e (fun p => p.isKey && !p.isTransient) ∧
      i.equalityExpressions ≠ []
  keyless : ∀ i, .implementation i ∈ r.artifacts → i.entity = e.qualifiedName → r.LacksKey e →
    i.equalityExpressions = i.readExpressions e (!·.isTransient)

/-! ## Single entities -/

theorem Graph.missingKey_eq {e : Entity} (h : e.kind = .entity) :
    missingKey e = if e.keys = [] then
      [nodeFinding e .missingKey .error
        ("Entity " ++ e.qualifiedName ++ " must have at least one key property")]
      else [] := by
  have hiff : (e.kind = .entity ∧ (!e.persistentProperties.any (·.isKey)) = true) ↔ e.keys = [] := by
    rw [Bool.not_eq_true', List.any_eq_false, Entity.keys, List.filter_eq_nil_iff]
    exact and_iff_right h
  unfold missingKey
  simp only [hiff]

namespace Derivation

variable (g : Graph) (o : DeriveOptions) (e : Entity)

theorem readExpressions_implementation (chosen : Property → Bool) :
    (implementation o e).readExpressions e chosen =
      (e.properties.filter chosen).map fun p => (accessor e p).readExpression := by
  show ((e.properties.zip (e.properties.map (accessor e))).filter fun x => chosen x.1).map _ = _
  rw [← List.map_prod_left_eq_zip, List.filter_map, List.map_map]
  rfl

theorem exists_key_attribute_iff :
    (∃ a ∈ (metadata g o e).attributes, a.isKey = true) ↔ e.keys ≠ [] := by
  rw [Ne, Entity.keys, List.filter_eq_nil_iff]
  push Not
  constructor
  · rintro ⟨a, ha, hkey⟩
    obtain ⟨p, hp, rfl⟩ := List.mem_map.1 ha
    exact ⟨p, hp, hkey⟩
  · rintro ⟨p, hp, hkey⟩
    exact ⟨_, List.mem_map.2 ⟨p, hp, rfl⟩, hkey⟩

theorem equalityExpressions_of_keys (h : e.keys ≠ []) :
    (implementation o e).equalityExpressions =
      (implementation o e).readExpressions e fun p => p.isKey && !p.isTransient := by
  have hcompared : (implementation o e).equalityExpressions =
      (if e.keys.isEmpty then e.persistentProperties else e.keys).map
        fun p => (accessor e p).readExpression := rfl
  rw [hcompared, readExpressions_implementation, if_neg (by simpa using h), Entity.keys,
    Entity.persistentProperties, List.filter_filter]

theorem equalityExpressions_of_keys_eq_nil (h : e.keys = []) :
    (implementation o e).equalityExpressions =
      (implementation o e).readExpressions e (!·.isTransient) := by
  have hcompared : (implementation o e).equalityExpressions =
      (if e.keys.isEmpty then e.persistentProperties else e.keys).map
        fun p => (accessor e p).readExpression := rfl
  rw [hcompared, readExpressions_implementation, if_pos (by simp [h])]
  rfl

end Derivation

/-! ## Runs -/

namespace Run

variable {s : DeclarationSource} {config : Config} {outDir : String}

theorem filter_missingKey_process (s : DeclarationSource) (config : Config) (outDir : String) :
    (process s config outDir).diagnostics.filter (·.code ∈ [DiagnosticCode.missingKey]) =
      (process s config outDir).graph.nodes.flatMap Graph.missingKey := by
  rw [filter_diagnostics_process (by decide), Graph.filter_validate _ (by decide)]
  refine List.flatMap_congr fun e _ => ?_
  rw [Graph.filter_nodeFindings]
  simp

/-- An entity is reported to have no key exactly when none of its stored properties is one. -/
theorem lacksKey_process_iff {e : Entity} (he : e ∈ (process s config outDir).graph.nodes)
    (hkind : e.kind = .entity) : (process s config outDir).LacksKey e ↔ e.keys = [] := by
  have hmem (f : Diagnostic) : (f ∈ (process s config outDir).diagnostics ∧ f.code = .missingKey) ↔
      ∃ e' ∈ (process s config outDir).graph.nodes, f ∈ Graph.missingKey e' := by
    rw [← List.mem_flatMap, ← filter_missingKey_process, List.mem_filter, decide_eq_true_iff,
      List.mem_singleton]
  constructor
  · rintro ⟨f, hf, hcode, hentity⟩
    obtain ⟨e', he', hfinding⟩ := (hmem f).1 ⟨hf, hcode⟩
    have hname : e'.qualifiedName = e.qualifiedName := by
      rw [Graph.eq_of_mem_ite hfinding] at hentity
      exact Option.some.inj hentity
    obtain rfl := (isKeyed_graph_process s config outDir).node_eq he' he hname
    rw [Graph.missingKey_eq hkind] at hfinding
    by_contra hkeys
    rw [if_neg hkeys] at hfinding
    cases hfinding
  · intro hkeys
    have hfinding := Graph.missingKey_eq hkind
    rw [if_pos hkeys] at hfinding
    obtain ⟨hf, hcode⟩ := (hmem _).2 ⟨e, he, hfinding ▸ List.mem_singleton_self _⟩
    exact ⟨_, hf, hcode, rfl⟩

/-! ## Inherited keys -/

/-- What is inherited says from where. -/
theorem isSome_inheritedFrom {d : Declaration} {own : String} {k : Property}
    (hk : k ∈ inheritedProperties s config d own) : k.inheritedFrom.isSome = true := by
  obtain ⟨name, -, hk⟩ := List.mem_flatMap.1 hk
  unfold Context.inheritedProperties at hk
  cases hlookup : ((build s config).context.superclasses.get? name).or
      ((build s config).context.embeddables.get? name) with
  | none =>
    rw [hlookup] at hk
    cases hk
  | some ancestor =>
    rw [hlookup] at hk
    obtain ⟨q, -, rfl⟩ := List.mem_map.1 hk
    rfl

/-- What an entity inherits under a name, which is what its nearest ancestor has, is one of its
properties unless an own one has the name. -/
theorem mem_properties_iff_of_inherited {e : Entity} (he : e ∈ builtOf s config .entity)
    {d : Declaration} (hd : d ∈ candidates s EntityKind.entity.marker)
    (hname : d.knownName? = some e.qualifiedName) {members : List Member}
    (hmembers : s.members d = .ok members) {k : Property}
    (hk : (inheritedProperties s config d e.qualifiedName).find? (·.name == k.name) = some k) :
    k ∈ e.properties ↔
      ∀ m ∈ members, ∀ p, extractProperty? s.catalog m e.owner = some p → p.name ≠ k.name := by
  have hown : (members.filterMap fun m => extractProperty? s.catalog m e.owner).find?
        (·.name == k.name) = none ↔
      ∀ m ∈ members, ∀ p, extractProperty? s.catalog m e.owner = some p → p.name ≠ k.name := by
    simp only [List.find?_eq_none, List.mem_filterMap, beq_iff_eq]
    exact ⟨fun h m hm p hp => h p ⟨m, hm, hp⟩, fun h p ⟨m, hm, hp⟩ => h m hm p hp⟩
  rw [properties_eq_firstBy he hd hname hmembers, mem_firstBy_iff, List.find?_append, hk, ← hown,
    Option.or_eq_some_iff]
  refine ⟨fun h => ?_, fun h => Or.inr ⟨h, rfl⟩⟩
  rcases h with hfirst | ⟨hnone, -⟩
  · -- own properties are not inherited
    obtain ⟨m, -, hextract⟩ := List.mem_filterMap.1 (List.mem_of_find?_eq_some hfirst)
    have hinherited := isSome_inheritedFrom (List.mem_of_find?_eq_some hk)
    rw [(of_extractProperty? hextract).2] at hinherited
    cases hinherited
  · exact hnone

/-! ## Agreement -/

theorem agreesOnKeys_of_mem {e : Entity} (he : e ∈ (process s config outDir).graph.nodes)
    (hkind : e.kind = .entity) : (process s config outDir).AgreesOnKeys e where
  metadata := by
    intro m hm hentity
    obtain ⟨-, e', he', rfl⟩ := metadata_mem_process_iff.1 hm
    obtain rfl := (isKeyed_graph_process s config outDir).node_eq he' he hentity
    rw [lacksKey_process_iff he hkind, Derivation.exists_key_attribute_iff]
  keyed := by
    intro i hi hentity hkeys
    obtain ⟨-, e', he', -, rfl⟩ := implementation_mem_process_iff.1 hi
    obtain rfl := (isKeyed_graph_process s config outDir).node_eq he' he hentity
    rw [lacksKey_process_iff he hkind] at hkeys
    have heq := Derivation.equalityExpressions_of_keys (deriveOptions config outDir) e' hkeys
    refine ⟨heq, ?_⟩
    rw [heq, Derivation.readExpressions_implementation, Ne, List.map_eq_nil_iff]
    rwa [Entity.keys, Entity.persistentProperties, List.filter_filter] at hkeys
  keyless := by
    intro i hi hentity hkeys
    obtain ⟨-, e', he', -, rfl⟩ := implementation_mem_process_iff.1 hi
    obtain rfl := (isKeyed_graph_process s config outDir).node_eq he' he hentity
    rw [lacksKey_process_iff he hkind] at hkeys
    exact Derivation.equalityExpressions_of_keys_eq_nil _ e' hkeys

/-- In a run with artifacts every entity has metadata, and an implementation if it is mutable. The
check of the graph, the metadata and the implementation agree on the entity's keys, to which an
inherited key belongs exactly when no own property has its name. -/
theorem agreesOnKeys_process (hemitted : (process s config outDir).emitted = true) {e : Entity}
    (he : e ∈ (process s config outDir).graph.nodes) (hkind : e.kind = .entity) :
    (∃ m, .metadata m ∈ (process s config outDir).artifacts ∧ m.entity = e.qualifiedName) ∧
      (e.isImmutable = false →
        ∃ i, .implementation i ∈ (process s config outDir).artifacts ∧ i.entity = e.qualifiedName) ∧
      (process s config outDir).AgreesOnKeys e ∧
      ∃ d ∈ candidates s EntityKind.entity.marker, ∃ members,
        d.knownName? = some e.qualifiedName ∧ s.members d = .ok members ∧
        ∀ k, (inheritedProperties s config d e.qualifiedName).find? (·.name == k.name) = some k →
          k.isKey = true → k.isTransient = false →
          (k ∈ e.keys ↔ ∀ m ∈ members, ∀ p,
            extractProperty? s.catalog m e.owner = some p → p.name ≠ k.name) := by
  refine ⟨⟨_, metadata_mem_process_iff.2 ⟨hemitted, e, he, rfl⟩, rfl⟩, fun hmutable => ?_,
    agreesOnKeys_of_mem he hkind, ?_⟩
  · have himpl : e.hasImplementation = true := by
      rw [Entity.hasImplementation, hkind, hmutable]
      rfl
    exact ⟨_, implementation_mem_process_iff.2 ⟨hemitted, e, he, himpl, rfl⟩, rfl⟩
  · have hbuilt := hkind ▸ mem_builtOf_kind he
    obtain ⟨d, members, b, hd, rfl, hb⟩ := isBuilt_of_mem_builtOf hbuilt
    have hmembers := hb.supplied
    rw [source_build] at hmembers
    refine ⟨d, hd, members, hb.named, hmembers, fun k hk hkey hstored => ?_⟩
    rw [← mem_properties_iff_of_inherited hbuilt hd hb.named hmembers hk, Entity.keys,
      List.mem_filter, Entity.mem_persistentProperties_iff, and_iff_left hkey, and_iff_left hstored]

end Run

/-! ## Two drafts -/

namespace Sample

/-- A class with an own property in place of the key that it inherits. -/
def draft : Declaration :=
  type .class "Draft" ["Entity"] ["Base"] [field "id" [], field "text" []]

end Sample

namespace Run

/-- An item has the key of its class, and a draft, which has hidden that key, is compared by all that
it stores. -/
theorem keys_of_item_and_draft :
    let r := Sample.run [Sample.base, Sample.item, Sample.draft]
    ∃ item ∈ r.graph.nodes, ∃ draft ∈ r.graph.nodes,
      item.qualifiedName = "shop.Item" ∧ draft.qualifiedName = "shop.Draft" ∧
      ¬ r.LacksKey item ∧ r.LacksKey draft ∧
      (∃ m, .metadata m ∈ r.artifacts ∧ m.entity = item.qualifiedName ∧
        ∃ a ∈ m.attributes, a.isKey = true) ∧
      ∃ i, .implementation i ∈ r.artifacts ∧ i.entity = draft.qualifiedName ∧
        i.equalityExpressions = i.readExpressions draft (!·.isTransient) := by
  intro r
  have hitem : (r.graph.nodes.any fun e => e.qualifiedName == "shop.Item" && e.kind == .entity &&
      !e.keys.isEmpty) = true := by
    decide +kernel
  have hdraft : (r.graph.nodes.any fun e => e.qualifiedName == "shop.Draft" && e.kind == .entity &&
      e.keys.isEmpty && !e.isImmutable) = true := by
    decide +kernel
  obtain ⟨item, hi, hitem⟩ := List.any_eq_true.1 hitem
  obtain ⟨draft, hd, hdraft⟩ := List.any_eq_true.1 hdraft
  simp only [Bool.and_eq_true, Bool.not_eq_true', beq_iff_eq] at hitem hdraft
  obtain ⟨⟨hiname, hikind⟩, hikeys⟩ := hitem
  obtain ⟨⟨⟨hdname, hdkind⟩, hdkeys⟩, hmutable⟩ := hdraft
  have hihas : ¬ r.LacksKey item := by
    intro hlacks
    rw [(lacksKey_process_iff hi hikind).1 hlacks] at hikeys
    cases hikeys
  have hdlacks : r.LacksKey draft :=
    (lacksKey_process_iff hd hdkind).2 (List.isEmpty_iff.1 hdkeys)
  obtain ⟨⟨m, hm, hmentity⟩, -, hagree, -⟩ := agreesOnKeys_process rfl hi hikind
  obtain ⟨-, himplementation, hagree', -⟩ := agreesOnKeys_process rfl hd hdkind
  obtain ⟨i, him, hientity⟩ := himplementation hmutable
  refine ⟨item, hi, draft, hd, hiname, hdname, hihas, hdlacks, ?_, ?_⟩
  · exact ⟨m, hm, hmentity, (hagree.metadata m hm hmentity).1 hihas⟩
  · exact ⟨i, him, hientity, hagree'.keyless i him hientity hdlacks⟩

end Run

end Metamodel
