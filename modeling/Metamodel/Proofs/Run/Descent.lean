import Metamodel.Proofs.Run.Origin

/-!
# What the nodes of a run inherit

Superclasses and embeddables inherit nothing. So what a node inherits is an own property of the
superclass or embeddable that it names (`exists_declarer`), and that name has a node: the entity of
the name if one has been built, and else that very superclass or embeddable (`node?_process`). An
entity that is built from the same declaration has the own properties of the other one as well
(`mem_properties_of_agree`).
-/

namespace Metamodel

/-- The name of the type that declares a property of an entity. -/
def Property.declarer (p : Property) (e : Entity) : String :=
  p.inheritedFrom.getD e.qualifiedName

/-- Whatever is built as an entity and under its name also as something else is built from one
declaration. -/
def DeclarationSource.EntitiesAgree (s : DeclarationSource) : Prop :=
  ∀ kind : EntityKind, ∀ d ∈ Run.candidates s EntityKind.entity.marker, ∀ d' ∈ Run.candidates s kind.marker,
    ∀ name, d.knownName? = some name → d'.knownName? = some name → d = d'

namespace Run

variable {s : DeclarationSource} {config : Config} {outDir : String}

/-! ## Own and inherited properties -/

theorem inheritedFrom_eq_none {kind : EntityKind} (hkind : kind ≠ .entity) {e : Entity}
    (he : e ∈ builtOf s config kind) {p : Property} (hp : p ∈ e.properties) :
    p.inheritedFrom = none := by
  obtain ⟨d, members, b, -, rfl, hb⟩ := isBuilt_of_mem_builtOf he
  obtain ⟨m, -, hextract⟩ := hb.exists_member hkind hp
  exact (of_extractProperty? hextract).2

/-- An inherited property is an own one of the ancestor that it names. -/
theorem exists_declarer {kind : EntityKind} {e : Entity} (he : e ∈ builtOf s config kind)
    {p : Property} (hp : p ∈ e.properties) {ancestor : String}
    (h : p.inheritedFrom = some ancestor) :
    ∃ e', (build s config).context.ancestor? ancestor = some e' ∧
      ∃ q ∈ e'.properties, q.inheritedFrom = none ∧ p = q.inherited ancestor := by
  obtain ⟨d, members, b, -, rfl, hb⟩ := isBuilt_of_mem_builtOf he
  rcases hb.mem_properties hp with ⟨m, -, hextract⟩ | ⟨name, -, e', hlookup, hheir⟩
  · rw [(of_extractProperty? hextract).2] at h
    cases h
  · obtain ⟨rfl, kind', hkind', he'⟩ := mem_builtOf_of_ancestor? hlookup
    obtain ⟨q, hq, rfl⟩ := List.mem_map.1 hheir
    have hown := inheritedFrom_eq_none hkind' he' hq
    simp only [hown, Option.getD_none, Option.some.injEq] at h
    subst h
    exact ⟨e', hlookup, q, hq, hown, rfl⟩

/-- The type of a property is that of a member of a declaration. -/
theorem exists_type {kind : EntityKind} {e : Entity} (he : e ∈ builtOf s config kind)
    {p : Property} (hp : p ∈ e.properties) :
    ∃ d ∈ s.declarations, ∃ members m, s.members d = .ok members ∧ m ∈ members ∧
      p.type = m.type := by
  have hown {kind' : EntityKind} {e' : Entity} (he' : e' ∈ builtOf s config kind') {q : Property}
      (hq : q ∈ e'.properties) (hnone : q.inheritedFrom = none) :
      ∃ d ∈ s.declarations, ∃ members m, s.members d = .ok members ∧ m ∈ members ∧
        q.type = m.type := by
    obtain ⟨d, members, b, hd, rfl, hb⟩ := isBuilt_of_mem_builtOf he'
    rcases hb.mem_properties hq with ⟨m, hm, hextract⟩ | ⟨name, -, e'', -, hheir⟩
    · exact ⟨d, mem_declarations_of_mem_candidates hd, members, m, members_of_isBuilt hb, hm,
        (of_extractProperty? hextract).1⟩
    · obtain ⟨_, -, rfl⟩ := List.mem_map.1 hheir
      cases hnone
  cases hfrom : p.inheritedFrom with
  | none => exact hown he hp hfrom
  | some ancestor =>
    obtain ⟨e', hlookup, q, hq, hnone, rfl⟩ := exists_declarer he hp hfrom
    obtain ⟨-, kind', -, he'⟩ := mem_builtOf_of_ancestor? hlookup
    obtain ⟨d, hd, members, m, hmembers, hm, htype⟩ := hown he' hq hnone
    exact ⟨d, hd, members, m, hmembers, hm, htype⟩

/-! ## Nodes -/

/-- The node of a name is the entity of that name, or else the ancestor that goes by it. -/
theorem node?_process (name : String) :
    (process s config outDir).graph.node? name =
      ((builtOf s config .entity).find? (·.qualifiedName == name)).or
        ((build s config).context.ancestor? name) := by
  have hsuper : (build s config).context.superclasses.get? name =
      (builtOf s config .superclass).find? (·.qualifiedName == name) :=
    get?_build s config .superclass name
  have hembeddable : (build s config).context.embeddables.get? name =
      (builtOf s config .embeddable).find? (·.qualifiedName == name) :=
    get?_build s config .embeddable name
  rw [graph_process, Context.ancestor?, hsuper, hembeddable]
  show (Graph.distinctNodes _).find? _ = _
  rw [Graph.distinctNodes_eq, find?_firstBy, List.find?_append, List.find?_append, Option.or_assoc]

theorem node?_eq_some_iff {name : String} {e : Entity} :
    (process s config outDir).graph.node? name = some e ↔
      e ∈ (process s config outDir).graph.nodes ∧ e.qualifiedName = name :=
  find?_eq_some_iff (isKeyed_graph_process s config outDir).nodes

/-- Whatever a node inherits comes from a type whose name has a node. -/
theorem exists_node_declarer {e : Entity} (he : e ∈ (process s config outDir).graph.nodes)
    {p : Property} (hp : p ∈ e.properties) :
    ∃ node ∈ (process s config outDir).graph.nodes, node.qualifiedName = p.declarer e := by
  cases hfrom : p.inheritedFrom with
  | none => exact ⟨e, he, by rw [Property.declarer, hfrom, Option.getD_none]⟩
  | some ancestor =>
    obtain ⟨e', hlookup, -⟩ := exists_declarer (mem_builtOf_kind he) hp hfrom
    have hnode : ((process s config outDir).graph.node? ancestor).isSome := by
      rw [node?_process, hlookup, Option.isSome_or, Option.isSome_some, Bool.or_true]
    obtain ⟨node, hfound⟩ := Option.isSome_iff_exists.1 hnode
    obtain ⟨hmem, hname⟩ := node?_eq_some_iff.1 hfound
    exact ⟨node, hmem, by rw [Property.declarer, hfrom, Option.getD_some, hname]⟩

/-- A node's property is reported elsewhere exactly when it is inherited. -/
theorem isDeclaredElsewhere_process {e : Entity}
    (he : e ∈ (process s config outDir).graph.nodes) {p : Property} (hp : p ∈ e.properties) :
    (process s config outDir).graph.isDeclaredElsewhere p = p.inheritedFrom.isSome := by
  unfold Graph.isDeclaredElsewhere
  cases hfrom : p.inheritedFrom with
  | none => rfl
  | some ancestor =>
    obtain ⟨node, hnode, hname⟩ := exists_node_declarer he hp
    rw [Property.declarer, hfrom, Option.getD_some] at hname
    exact List.any_eq_true.2 ⟨node, hnode, beq_iff_eq.2 hname⟩

theorem nodup_properties_process (s : DeclarationSource) (config : Config) (outDir : String) :
    ((process s config outDir).graph.properties.map OwnedProperty.key).Nodup := by
  rw [graph_process]
  refine Graph.nodup_properties_assemble fun e he => ?_
  obtain ⟨kind, hkind⟩ := exists_kind_of_mem he
  obtain ⟨_, _, b, -, rfl, hb⟩ := isBuilt_of_mem_builtOf hkind
  exact hb.nodup_names

theorem mem_properties_process_iff {op : OwnedProperty} :
    op ∈ (process s config outDir).graph.properties ↔
      op.owner ∈ (process s config outDir).graph.nodes ∧ op.property ∈ op.owner.properties := by
  rw [graph_process]
  simp only [Graph.assemble, List.mem_flatMap, List.mem_map]
  constructor
  · rintro ⟨o, ho, p, hp, rfl⟩
    exact ⟨ho, hp⟩
  · rintro ⟨ho, hp⟩
    exact ⟨op.owner, ho, op.property, hp, rfl⟩

/-! ## One declaration under a name -/

theorem entitiesAgree_of_nodup
    (h : (s.declarations.filterMap Declaration.knownName?).Nodup) : s.EntitiesAgree := by
  intro kind d hd d' hd' name hname hname'
  exact eq_of_nodup_filterMap h (mem_declarations_of_mem_candidates hd)
    (mem_declarations_of_mem_candidates hd') hname hname'

/-- An entity has the properties that the superclass or embeddable of its name has, if both are
built from one declaration. -/
theorem mem_properties_of_agree (h : s.EntitiesAgree) {e e' : Entity}
    (he : e ∈ builtOf s config .entity) {kind : EntityKind} (hkind : kind ≠ .entity)
    (he' : e' ∈ builtOf s config kind) (hname : e.qualifiedName = e'.qualifiedName) {q : Property}
    (hq : q ∈ e'.properties) : q ∈ e.properties := by
  obtain ⟨d, b, hd, rfl, hb⟩ := exists_buildEntity_of_mem_builtOf he
  obtain ⟨d', b', hd', rfl, hb'⟩ := exists_buildEntity_of_mem_builtOf he'
  obtain ⟨members, hbuilt⟩ := isBuilt_of_buildEntity hb
  obtain ⟨members', hbuilt'⟩ := isBuilt_of_buildEntity hb'
  obtain rfl := h kind d hd d' hd' _ hbuilt.named (hname ▸ hbuilt'.named)
  have howner := owner_of_buildEntity hb hb'
  have hmembers := hbuilt'.supplied.symm.trans hbuilt.supplied
  cases hmembers
  -- the property is the first of its name among the own ones, which come first
  rw [hbuilt'.properties_eq_own hkind, ← howner, mem_firstBy_iff] at hq
  rw [hbuilt.properties_eq_firstBy, mem_firstBy_iff, List.find?_append, hq]
  rfl

end Run

end Metamodel
