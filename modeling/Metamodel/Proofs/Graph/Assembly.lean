import Metamodel.Proofs.Graph.Findings
import Metamodel.Proofs.Graph.Order

/-!
# The relationships of an assembled graph

`Property.RefersTo p name` says which mapped type a property relates its owner to. In a graph that
is assembled from entities, superclasses and embeddables, a property of a node has one edge when it
refers to an entity or a superclass of the run, and none otherwise. The edge leads to the entity of
that name, or else to the superclass, and that is a node (`mem_nodes_of_targetOf?`). Hence no edge
of an assembled graph dangles, and a search by names finds the edge of each property.
-/

namespace Metamodel

/-- The property is a stored relationship whose target type, which is the single element type of a
collection or else the declared type, is a reference to the declared type of the name. -/
structure Property.RefersTo (p : Property) (name : String) : Prop where
  related : p.cardinality ≠ none
  persistent : p.isTransient = false
  target : ∃ ref : TypeRef, (if p.isCollection then p.type.args = [ref] else p.type = ref) ∧
    ref.kind = .named ∧ ref.name = name

/-- A property refers to one name at most. -/
theorem Property.RefersTo.unique {p : Property} {name name' : String} (h : p.RefersTo name)
    (h' : p.RefersTo name') : name = name' := by
  obtain ⟨ref, href, -, rfl⟩ := h.target
  obtain ⟨ref', href', -, rfl⟩ := h'.target
  by_cases hc : p.isCollection = true
  · rw [if_pos hc] at href href'
    rw [href] at href'
    rw [List.singleton_inj.1 href']
  · rw [if_neg hc] at href href'
    rw [← href, ← href']

namespace Graph

/-! ## Targets -/

theorem relationshipTarget?_eq_some_iff {type ref : TypeRef} {isCollection : Bool} :
    relationshipTarget? type isCollection = some ref ↔
      if isCollection then type.args = [ref] else type = ref := by
  unfold relationshipTarget?
  cases isCollection with
  | false => simp
  | true =>
    simp only [if_true]
    split
    · rename_i element heq
      rw [heq, Option.some.injEq, List.singleton_inj]
    · rename_i hne
      constructor
      · intro h
        cases h
      · intro h
        exact absurd h (hne ref)

/-- A property leads to a type exactly when it refers to the name of one that is known. -/
theorem targetOf?_eq_some_iff {es ss : List Entity} {p : Property} {t : Entity} :
    targetOf? es ss p = some t ↔
      ∃ name, p.RefersTo name ∧ (lastNamed? es name).or (lastNamed? ss name) = some t := by
  unfold targetOf?
  by_cases hp : (p.cardinality.isNone || p.isTransient) = true
  · rw [if_pos hp]
    constructor
    · intro h
      cases h
    · rintro ⟨name, href, -⟩
      rcases Bool.or_eq_true_iff.1 hp with hnone | htransient
      · exact absurd (Option.isNone_iff_eq_none.1 hnone) href.related
      · rw [href.persistent] at htransient
        cases htransient
  · rw [if_neg hp]
    rw [Bool.or_eq_true_iff, not_or, Option.isNone_iff_eq_none, Bool.not_eq_true] at hp
    obtain ⟨hrelated, hpersistent⟩ := hp
    constructor
    · intro h
      cases href : (relationshipTarget? p.type p.isCollection).filter (·.kind == .named) with
      | none =>
        rw [href] at h
        cases h
      | some ref =>
        rw [href] at h
        obtain ⟨htarget, hkind⟩ := Option.filter_eq_some_iff.1 href
        refine ⟨ref.name, ⟨hrelated, hpersistent, ref, ?_, eq_of_beq hkind, rfl⟩, h⟩
        exact relationshipTarget?_eq_some_iff.1 htarget
    · rintro ⟨name, ⟨-, -, ref, href, hkind, rfl⟩, ht⟩
      rw [relationshipTarget?_eq_some_iff.2 href]
      simp only [Option.filter, hkind, beq_self_eq_true, if_true]
      exact ht

theorem exists_or_lastNamed? {es ss : List Entity} {name : String} {known : Entity}
    (h : known ∈ es ++ ss) (hname : known.qualifiedName = name) :
    ∃ t, (lastNamed? es name).or (lastNamed? ss name) = some t := by
  have hfound (xs : List Entity) (hx : known ∈ xs) : (lastNamed? xs name).isSome := by
    refine List.find?_isSome.2 ⟨known, List.mem_reverse.2 hx, ?_⟩
    exact beq_iff_eq.2 hname
  rw [← Option.isSome_iff_exists, Option.isSome_or, Bool.or_eq_true]
  rcases List.mem_append.1 h with h | h
  · exact Or.inl (hfound es h)
  · exact Or.inr (hfound ss h)

section

variable {es ss ms : List Entity} (hes : (es.map Entity.qualifiedName).Nodup)
  (hss : (ss.map Entity.qualifiedName).Nodup)

include hes hss

/-- The type found for a name is the entity of that name, or else the superclass. -/
theorem or_lastNamed?_eq_some_iff {name : String} {t : Entity} :
    (lastNamed? es name).or (lastNamed? ss name) = some t ↔
      t.qualifiedName = name ∧
        (t ∈ es ∨ t ∈ ss ∧ ∀ e ∈ es, e.qualifiedName ≠ name) := by
  rw [lastNamed?_eq_find? hes, lastNamed?_eq_find? hss, Option.or_eq_some_iff,
    find?_eq_some_iff hes, find?_eq_some_iff hss, List.find?_eq_none]
  simp only [beq_iff_eq]
  constructor
  · rintro (⟨ht, hname⟩ | ⟨hnone, ht, hname⟩)
    · exact ⟨hname, Or.inl ht⟩
    · exact ⟨hname, Or.inr ⟨ht, hnone⟩⟩
  · rintro ⟨hname, ht | ⟨ht, hnone⟩⟩
    · exact Or.inl ⟨ht, hname⟩
    · exact Or.inr ⟨hnone, ht, hname⟩

/-- What a property leads to is a node: no entity or superclass is shadowed by a type that is not
preferred as a target as well. -/
theorem mem_nodes_of_targetOf? {p : Property} {t : Entity} (h : targetOf? es ss p = some t) :
    t ∈ (assemble es ss ms).nodes := by
  obtain ⟨name, -, hfound⟩ := targetOf?_eq_some_iff.1 h
  obtain ⟨rfl, -⟩ := (or_lastNamed?_eq_some_iff hes hss).1 hfound
  rw [lastNamed?_eq_find? hes, lastNamed?_eq_find? hss] at hfound
  show t ∈ distinctNodes (es ++ ss ++ ms)
  rw [distinctNodes_eq, mem_firstBy_iff, List.find?_append, List.find?_append, hfound]
  rfl

end

/-! ## Edges -/

theorem mem_edges_assemble_iff {es ss ms : List Entity} {edge : Edge} :
    edge ∈ (assemble es ss ms).edges ↔
      edge.source ∈ (assemble es ss ms).nodes ∧ edge.property ∈ edge.source.properties ∧
        targetOf? es ss edge.property = some edge.target := by
  simp only [assemble, List.mem_filterMap, List.mem_flatMap, List.mem_map, Option.map_eq_some_iff]
  constructor
  · rintro ⟨_, ⟨o, ho, p, hp, rfl⟩, t, ht, rfl⟩
    exact ⟨ho, hp, ht⟩
  · rintro ⟨ho, hp, ht⟩
    exact ⟨⟨edge.source, edge.property⟩, ⟨edge.source, ho, edge.property, hp, rfl⟩, edge.target, ht,
      rfl⟩

/-- The edges of a property of a type, found by the names of both. -/
def edgesOf (g : Graph) (owner property : String) : List Edge :=
  g.edges.filter (·.key == (owner, property))

theorem edge?_eq_head?_edgesOf (g : Graph) (owner property : String) :
    g.edge? owner property = (g.edgesOf owner property).head? := by
  rw [edge?_eq_find?, edgesOf, List.head?_filter]

section

variable {es ss ms : List Entity}
  (hnames : ∀ e ∈ es ++ ss ++ ms, (e.properties.map Property.name).Nodup)

include hnames

/-- An edge with the names of a node and of one of its properties is the edge of that property. -/
theorem eq_of_key_eq {o : Entity} {p : Property} (ho : o ∈ (assemble es ss ms).nodes)
    (hp : p ∈ o.properties) {edge : Edge} (hedge : edge ∈ (assemble es ss ms).edges)
    (hkey : edge.key = (o.qualifiedName, p.name)) : edge.source = o ∧ edge.property = p := by
  obtain ⟨hsource, hproperty, -⟩ := mem_edges_assemble_iff.1 hedge
  obtain ⟨howner, hname⟩ := Prod.mk.inj hkey
  -- the owner's name tells the node, and then the property's name the property
  have heq : edge.source = o := (isKeyed_assemble hnames).node_eq hsource ho howner
  have hinput : o ∈ es ++ ss ++ ms := by
    have ho' : o ∈ distinctNodes (es ++ ss ++ ms) := ho
    rw [distinctNodes_eq] at ho'
    exact (firstBy_sublist _).subset ho'
  rw [heq] at hproperty
  exact ⟨heq, List.inj_on_of_nodup_map (hnames o hinput) hproperty hp hname⟩

/-- A property of a node has the edge to the type that it leads to, and no other. -/
theorem edgesOf_assemble {o : Entity} {p : Property} (ho : o ∈ (assemble es ss ms).nodes)
    (hp : p ∈ o.properties) :
    (assemble es ss ms).edgesOf o.qualifiedName p.name =
      (targetOf? es ss p).toList.map (⟨o, ·, p⟩) := by
  cases ht : targetOf? es ss p with
  | none =>
    refine List.filter_eq_nil_iff.2 ?_
    intro edge hedge hkey
    obtain ⟨-, rfl⟩ := eq_of_key_eq hnames ho hp hedge (eq_of_beq hkey)
    rw [(mem_edges_assemble_iff.1 hedge).2.2] at ht
    cases ht
  | some t =>
    have hedge : (⟨o, t, p⟩ : Edge) ∈ (assemble es ss ms).edges :=
      mem_edges_assemble_iff.2 ⟨ho, hp, ht⟩
    exact filter_eq_singleton (isKeyed_assemble hnames).edges hedge

end

/-! ## No edge dangles -/

theorem danglingRelationship_eq_nil {g : Graph} {edge : Edge} (hsource : edge.source ∈ g.nodes)
    (htarget : edge.target ∈ g.nodes) : g.danglingRelationship edge = [] := by
  have hnode (e : Entity) (he : e ∈ g.nodes) : g.hasNode e.qualifiedName = true :=
    List.any_eq_true.2 ⟨e, he, beq_self_eq_true _⟩
  unfold danglingRelationship
  simp only [hnode _ hsource, hnode _ htarget, Bool.and_self, if_true]

/-- If both ends of every edge are nodes, no finding tells of a dangling one. -/
theorem code_validate_ne {g : Graph}
    (h : ∀ edge ∈ g.edges, edge.source ∈ g.nodes ∧ edge.target ∈ g.nodes) {d : Diagnostic}
    (hd : d ∈ g.validate) : d.code ≠ .danglingRelationship := by
  rcases List.mem_append.1 hd with hd | hd
  · obtain ⟨e, -, hfinding⟩ := List.mem_flatMap.1 hd
    exact code_nodeFindings_ne hfinding
  · obtain ⟨edge, hedge, hfinding⟩ := List.mem_flatMap.1 hd
    rw [danglingRelationship_eq_nil (h edge hedge).1 (h edge hedge).2] at hfinding
    cases hfinding

/-! ## The whole graph -/

/-- The nodes are the entities, superclasses and embeddables, of each name the first. A property of
a node has exactly one edge when it refers to an entity or a superclass, to the entity if there is
one of the name, and has none otherwise; a search by names finds just that. All ends of edges are
nodes, so no finding tells of a dangling edge. -/
theorem relationships_of_assemble {es ss ms : List Entity}
    (hes : (es.map Entity.qualifiedName).Nodup) (hss : (ss.map Entity.qualifiedName).Nodup)
    (hnames : ∀ e ∈ es ++ ss ++ ms, (e.properties.map Property.name).Nodup) :
    let g := assemble es ss ms
    g.nodes = firstBy Entity.qualifiedName (es ++ ss ++ ms) ∧
      g.properties = g.nodes.flatMap (fun o => o.properties.map (⟨o, ·⟩)) ∧
      (∀ edge ∈ g.edges, edge.source ∈ g.nodes ∧ edge.property ∈ edge.source.properties) ∧
      (∀ o ∈ g.nodes, ∀ p ∈ o.properties,
        (∀ name, p.RefersTo name → (∃ t ∈ es ++ ss, t.qualifiedName = name) →
          ∃ t ∈ g.nodes, t ∈ es ++ ss ∧ t.qualifiedName = name ∧
            (∀ e ∈ es, e.qualifiedName = name → t = e) ∧
            g.edgesOf o.qualifiedName p.name = [⟨o, t, p⟩] ∧
            g.edge? o.qualifiedName p.name = some ⟨o, t, p⟩) ∧
        ((∀ name, p.RefersTo name → ∀ t ∈ es ++ ss, t.qualifiedName ≠ name) →
          g.edgesOf o.qualifiedName p.name = [] ∧ g.edge? o.qualifiedName p.name = none)) ∧
      ∀ d ∈ g.validate, d.code ≠ .danglingRelationship := by
  intro g
  refine ⟨distinctNodes_eq _, rfl, ?_, ?_, ?_⟩
  · intro edge hedge
    obtain ⟨hsource, hproperty, -⟩ := mem_edges_assemble_iff.1 hedge
    exact ⟨hsource, hproperty⟩
  · intro o ho p hp
    have hedges := edgesOf_assemble hnames ho hp
    refine ⟨?_, ?_⟩
    · rintro name href ⟨known, hknown, hname⟩
      obtain ⟨t, ht⟩ := exists_or_lastNamed? hknown hname
      have htarget := targetOf?_eq_some_iff.2 ⟨name, href, ht⟩
      obtain ⟨htname, hmem⟩ := (or_lastNamed?_eq_some_iff hes hss).1 ht
      rw [htarget] at hedges
      refine ⟨t, mem_nodes_of_targetOf? hes hss htarget, ?_, htname, ?_, hedges, ?_⟩
      · rcases hmem with hmem | ⟨hmem, -⟩
        · exact List.mem_append_left ss hmem
        · exact List.mem_append_right es hmem
      · intro e he hename
        rcases hmem with hmem | ⟨-, hnone⟩
        · exact List.inj_on_of_nodup_map hes hmem he (htname.trans hename.symm)
        · exact absurd hename (hnone e he)
      · rw [edge?_eq_head?_edgesOf, hedges]
        rfl
    · intro hunknown
      have hnone : targetOf? es ss p = none := by
        refine Option.eq_none_iff_forall_ne_some.2 ?_
        intro t ht
        obtain ⟨name, href, hfound⟩ := targetOf?_eq_some_iff.1 ht
        obtain ⟨htname, hmem⟩ := (or_lastNamed?_eq_some_iff hes hss).1 hfound
        rcases hmem with hmem | ⟨hmem, -⟩
        · exact hunknown name href t (List.mem_append_left ss hmem) htname
        · exact hunknown name href t (List.mem_append_right es hmem) htname
      rw [hnone] at hedges
      refine ⟨hedges, ?_⟩
      rw [edge?_eq_head?_edgesOf, hedges]
      rfl
  · intro d hd
    refine code_validate_ne ?_ hd
    intro edge hedge
    obtain ⟨hsource, -, htarget⟩ := mem_edges_assemble_iff.1 hedge
    exact ⟨hsource, mem_nodes_of_targetOf? hes hss htarget⟩

end Graph

/-! ## A customer and its purchases

A purchase is built as an entity and as a superclass. The agent of a customer is no mapped type. -/

namespace Sample

def typeNamed (name : String) : TypeRef :=
  ⟨.named, "shop." ++ name, none, none, none, none⟩

/-- A list of values of a type. -/
def listOf (element : TypeRef) : TypeRef :=
  ⟨.container, "Array", some .list, some [element], none, none⟩

def relation (name : String) (cardinality : Cardinality) (type : TypeRef) : Property :=
  { (default : Property) with
    name, type, cardinality := some cardinality, isCollection := type.kind == .container }

def mapped (kind : EntityKind) (name : String) (properties : List Property) : Entity :=
  { (default : Entity) with
    simpleName := name, qualifiedName := "shop." ++ name, kind, properties }

def purchases : Property := relation "purchases" .oneToMany (listOf (typeNamed "Purchase"))

def agent : Property := relation "agent" .manyToOne (typeNamed "Agent")

def customer : Entity :=
  mapped .entity "Customer" [purchases, agent, relation "parent" .oneToOne (typeNamed "Customer")]

def purchase (kind : EntityKind) : Entity :=
  mapped kind "Purchase" [relation "buyer" .manyToOne (typeNamed "Customer")]

end Sample

namespace Graph

theorem refersTo_purchases : Sample.purchases.RefersTo "shop.Purchase" where
  related := by decide
  persistent := rfl
  target := ⟨Sample.typeNamed "Purchase", rfl, rfl, rfl⟩

/-- The purchases lead to the entity and not to the superclass of its name, the agent nowhere. -/
theorem relationships_of_customer :
    let g := assemble [Sample.customer, Sample.purchase .entity] [Sample.purchase .superclass] []
    g.edges.map (fun e => (e.source.simpleName, e.property.name, e.target.kind)) =
        [("Customer", "purchases", .entity), ("Customer", "parent", .entity),
          ("Purchase", "buyer", .entity)] ∧
      g.edgesOf "shop.Customer" "purchases" =
        [⟨Sample.customer, Sample.purchase .entity, Sample.purchases⟩] ∧
      g.edge? "shop.Customer" "agent" = none ∧
      ∀ d ∈ g.validate, d.code ≠ .danglingRelationship := by
  intro g
  obtain ⟨-, -, -, hedges, hdangling⟩ :=
    @relationships_of_assemble [Sample.customer, Sample.purchase .entity]
      [Sample.purchase .superclass] [] (by decide +kernel) (by decide +kernel) (by decide +kernel)
  have hcustomer : Sample.customer ∈ g.nodes := List.mem_cons_self
  refine ⟨by decide +kernel, ?_, ?_, hdangling⟩
  · obtain ⟨t, -, -, -, hentity, hone, -⟩ :=
      (hedges _ hcustomer Sample.purchases List.mem_cons_self).1 _ refersTo_purchases
        ⟨Sample.purchase .entity, by simp, rfl⟩
    rw [← hentity (Sample.purchase .entity) (by simp) rfl]
    exact hone
  · refine ((hedges _ hcustomer Sample.agent (by simp [Sample.customer, Sample.mapped])).2 ?_).2
    rintro name ⟨-, -, ref, rfl, -, rfl⟩
    decide +kernel

end Graph

end Metamodel
