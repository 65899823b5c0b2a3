import Metamodel.Proofs.Run.Transience

/-!
# Hidden properties of a run

A type can declare a property of its ancestors again and mark it as transient. Of each name the first
property decides, own ones before inherited ones. Interfaces keep transient members as properties, so
that the first own member of a name decides alone. Classes drop them, so that the other own members
decide and then the inherited properties (`hides_process_iff`). Where no property that is stored goes by
a name, neither does a relationship, an attribute or anything that equality compares (`hides_iff`).
-/

namespace Metamodel

/-- The member has the shape of a property of the name: instances can use it, it has a value and does
not copy its owner. -/
def Member.isShapedAs (m : Member) (owner : Owner) (name : String) : Bool :=
  !m.has .private && !m.has .static && m.propertyName? == some name && name != "" &&
    m.type.kind != .void && !owner.isCopiedBy m.type

/-- Whether the member is not to be stored. -/
def Member.isTransient (m : Member) (catalog : Catalog) : Bool :=
  hasMark (m.marks catalog) .transient

/-- Whether a type keeps the member as a property: only interfaces keep transient ones. -/
def Owner.keeps (owner : Owner) (catalog : Catalog) (m : Member) : Bool :=
  owner.isInterface || !m.isTransient catalog

/-- Nothing stored of the type goes by the name, nor does anything derived from what is stored. -/
structure RunResult.Hides (r : RunResult) (e : Entity) (name : String) : Prop where
  properties : ∀ p ∈ e.persistentProperties, p.name ≠ name
  relationships : ∀ edge ∈ r.graph.edges, edge.source.qualifiedName = e.qualifiedName →
    edge.property.name ≠ name
  attributes : ∀ m, .metadata m ∈ r.artifacts → m.entity = e.qualifiedName →
    ∀ a ∈ m.attributes, a.name ≠ name
  equality : ∀ i, .implementation i ∈ r.artifacts → i.entity = e.qualifiedName →
    ∃ compared : List Property, compared.Sublist e.persistentProperties ∧
      (∀ p ∈ compared, p.name ≠ name) ∧
      i.equalityExpressions = compared.map fun p => (Derivation.accessor e p).readExpression

/-! ## Members of a name -/

section Members

variable {catalog : Catalog} {owner : Owner} {m : Member} {name : String}

theorem Member.isShapedAs_iff :
    m.isShapedAs owner name = true ↔ (m.has .private || m.has .static) = false ∧
      m.propertyName? = some name ∧ name ≠ "" ∧ m.type.kind ≠ .void ∧
      owner.isCopiedBy m.type = false := by
  unfold isShapedAs
  simp [and_assoc]

/-- A member gives the property of its shape, unless it is transient and the owner a class. -/
theorem extractProperty?_eq_some_iff {p : Property} :
    extractProperty? catalog m owner = some p ↔ ∃ name, m.isShapedAs owner name = true ∧
      owner.keeps catalog m = true ∧ m.toProperty name (m.marks catalog) = p := by
  have hkeeps : owner.keeps catalog m = true ↔
      ¬ (hasMark (m.marks catalog) .transient && !owner.isInterface) = true := by
    unfold Owner.keeps Member.isTransient
    cases owner.isInterface <;> cases hasMark (m.marks catalog) .transient <;> decide
  simp only [Member.isShapedAs_iff, hkeeps]
  unfold extractProperty?
  cases m.has .private || m.has .static with
  | true => simp
  | false => cases m.propertyName? <;> simp [and_assoc]

theorem extractProperty?_of_isShapedAs (hshape : m.isShapedAs owner name = true)
    (hkept : owner.keeps catalog m = true) :
    extractProperty? catalog m owner = some (m.toProperty name (m.marks catalog)) :=
  extractProperty?_eq_some_iff.2 ⟨name, hshape, hkept, rfl⟩

/-- The first property of a name is that of the first member of its shape that is kept. -/
theorem find?_extractProperty? (members : List Member) :
    (members.filterMap fun m => extractProperty? catalog m owner).find? (·.name == name) =
      (members.find? fun m => m.isShapedAs owner name && owner.keeps catalog m).map
        fun m => m.toProperty name (m.marks catalog) := by
  have hany (m : Member) : (extractProperty? catalog m owner).any (·.name == name) =
      (m.isShapedAs owner name && owner.keeps catalog m) := by
    rw [Bool.eq_iff_iff, Option.any_eq_true, Bool.and_eq_true]
    constructor
    · rintro ⟨p, hp, hname⟩
      obtain ⟨other, hshape, hkept, rfl⟩ := extractProperty?_eq_some_iff.1 hp
      have hsame : other = name := eq_of_beq hname
      exact ⟨hsame ▸ hshape, hkept⟩
    · rintro ⟨hshape, hkept⟩
      exact ⟨_, extractProperty?_of_isShapedAs hshape hkept, beq_self_eq_true name⟩
  rw [List.find?_filterMap, funext hany]
  cases hfind : members.find? fun m => m.isShapedAs owner name && owner.keeps catalog m with
  | none => rfl
  | some m =>
    have hfound := List.find?_some hfind
    rw [Bool.and_eq_true] at hfound
    exact extractProperty?_of_isShapedAs hfound.1 hfound.2

end Members

/-! ## The property that decides -/

/-- The first of several properties of a name is not stored, if there is one. -/
def HidesFirst (name : String) (ps : List Property) : Prop :=
  ∀ p, ps.find? (·.name == name) = some p → p.isTransient = true

/-- Of distinct names, the first property of a name is the only one. -/
theorem hidesFirst_iff {e : Entity} (h : (e.properties.map Property.name).Nodup) {name : String} :
    HidesFirst name e.properties ↔ ∀ p ∈ e.persistentProperties, p.name ≠ name := by
  unfold HidesFirst
  simp only [find?_eq_some_iff h, Entity.mem_persistentProperties_iff]
  constructor
  · rintro hfirst p ⟨hp, hstored⟩ hname
    rw [hfirst p ⟨hp, hname⟩] at hstored
    cases hstored
  · rintro hall p ⟨hp, hname⟩
    by_contra hstored
    exact hall p ⟨hp, eq_false_of_ne_true hstored⟩ hname

theorem hidesFirst_firstBy {name : String} {ps : List Property} :
    HidesFirst name (firstBy Property.name ps) ↔ HidesFirst name ps := by
  unfold HidesFirst
  rw [find?_firstBy]

/-- What stands behind counts only when there is none of the name in front. -/
theorem hidesFirst_append {name : String} {ps qs : List Property} :
    HidesFirst name (ps ++ qs) ↔
      HidesFirst name ps ∧ (ps.find? (·.name == name) = none → HidesFirst name qs) := by
  unfold HidesFirst
  rw [List.find?_append]
  cases ps.find? (·.name == name) <;> simp

/-- Interfaces keep all members: the first one of a name decides. -/
theorem hidesFirst_of_isInterface {catalog : Catalog} {owner : Owner}
    (h : owner.isInterface = true) {name : String} {members : List Member} :
    HidesFirst name (members.filterMap fun m => extractProperty? catalog m owner) ↔
      ∀ first, members.find? (·.isShapedAs owner name) = some first →
        first.isTransient catalog = true := by
  have hkeeps (m : Member) : owner.keeps catalog m = true := Bool.or_eq_true_iff.2 (Or.inl h)
  unfold HidesFirst
  simp only [find?_extractProperty?, hkeeps, Bool.and_true, Option.map_eq_some_iff,
    forall_exists_index, and_imp, forall_apply_eq_imp_iff₂]
  rfl

theorem find?_eq_none_of_class {catalog : Catalog} {owner : Owner}
    (h : owner.isInterface = false) {name : String} {members : List Member} :
    (members.filterMap fun m => extractProperty? catalog m owner).find? (·.name == name) = none ↔
      ∀ m ∈ members, m.isShapedAs owner name = true → m.isTransient catalog = true := by
  rw [find?_extractProperty?, Option.map_eq_none_iff, List.find?_eq_none]
  simp [Owner.keeps, h]

/-- Classes keep no transient members: one that is kept is stored. -/
theorem hidesFirst_of_class {catalog : Catalog} {owner : Owner} (h : owner.isInterface = false)
    {name : String} {members : List Member} :
    HidesFirst name (members.filterMap fun m => extractProperty? catalog m owner) ↔
      ∀ m ∈ members, m.isShapedAs owner name = true → m.isTransient catalog = true := by
  rw [← find?_eq_none_of_class h]
  unfold HidesFirst
  refine ⟨fun hfirst => ?_, fun hnone p hp => ?_⟩
  · by_contra hsome
    obtain ⟨p, hp⟩ := Option.ne_none_iff_exists'.1 hsome
    have htransient := hfirst p hp
    obtain ⟨m, -, hm⟩ := List.mem_filterMap.1 (List.mem_of_find?_eq_some hp)
    obtain ⟨_, -, hkept, rfl⟩ := extractProperty?_eq_some_iff.1 hm
    rw [Owner.keeps, h, Bool.false_or, Bool.not_eq_true'] at hkept
    exact absurd htransient (ne_true_of_eq_false hkept)
  · rw [hnone] at hp
    cases hp

/-- Equality compares properties that are stored. -/
theorem Derivation.exists_compared (o : DeriveOptions) (e : Entity) :
    ∃ compared : List Property, compared.Sublist e.persistentProperties ∧
      (implementation o e).equalityExpressions =
        compared.map fun p => (accessor e p).readExpression := by
  refine ⟨_, ?_, rfl⟩
  split
  · exact List.Sublist.refl _
  · exact List.filter_sublist

namespace Run

variable {s : DeclarationSource} {config : Config} {outDir : String}

/-- The declaration of an entity is the candidate of its name. -/
theorem isBuilt_of_mem_candidates {e : Entity} (he : e ∈ builtOf s config .entity)
    {d : Declaration} (hd : d ∈ candidates s EntityKind.entity.marker)
    (hname : d.knownName? = some e.qualifiedName) {members : List Member}
    (hmembers : s.members d = .ok members) :
    ∃ b, b.entity = e ∧ IsBuilt (build s config).context .entity d members b := by
  obtain ⟨d', members', b, hd', rfl, hb⟩ := isBuilt_of_mem_builtOf he
  have hsame : d' = d :=
    eq_of_nodup_filterMap (nodup_candidates s EntityKind.entity.marker) hd' hd hb.named hname
  subst hsame
  have hsupplied := hb.supplied
  rw [source_build, hmembers] at hsupplied
  cases hsupplied
  exact ⟨b, rfl, hb⟩

/-- What is derived from the stored properties of a node hides the names that these do not have. -/
theorem hides_iff {e : Entity} (he : e ∈ (process s config outDir).graph.nodes) {name : String} :
    (process s config outDir).Hides e name ↔ ∀ p ∈ e.persistentProperties, p.name ≠ name := by
  refine ⟨fun h => h.properties, fun h => ⟨h, ?_, ?_, ?_⟩⟩
  · intro edge hedge hsource
    have hkeyed := isKeyed_graph_process s config outDir
    rw [graph_process] at hedge
    obtain ⟨hnode, hp, -⟩ := Graph.mem_edges_assemble_iff.1 hedge
    rw [← graph_process] at hnode
    have hstored := Graph.isTransient_of_mem_edges hedge
    rw [hkeyed.node_eq hnode he hsource] at hp
    exact h _ (Entity.mem_persistentProperties_iff.2 ⟨hp, hstored⟩)
  · intro m hm hentity a ha
    obtain ⟨-, e', he', rfl⟩ := metadata_mem_process_iff.1 hm
    obtain rfl := (isKeyed_graph_process s config outDir).node_eq he' he hentity
    obtain ⟨p, hp, rfl⟩ := List.mem_map.1 ha
    exact h p hp
  · intro i hi hentity
    obtain ⟨-, e', he', -, rfl⟩ := implementation_mem_process_iff.1 hi
    obtain rfl := (isKeyed_graph_process s config outDir).node_eq he' he hentity
    obtain ⟨compared, hsublist, heq⟩ :=
      Derivation.exists_compared (deriveOptions config outDir) e'
    exact ⟨compared, hsublist, fun p hp => h p (hsublist.subset hp), heq⟩

/-- The properties of the ancestors that a run has built, in the order in which an entity takes them
over. -/
def inheritedProperties (s : DeclarationSource) (config : Config) (d : Declaration)
    (own : String) : List Property :=
  (Ancestry.of s d own).ancestors.flatMap (build s config).context.inheritedProperties

/-- The properties of an entity are the first ones of each name among its own and the inherited
ones. -/
theorem properties_eq_firstBy {e : Entity} (he : e ∈ builtOf s config .entity) {d : Declaration}
    (hd : d ∈ candidates s EntityKind.entity.marker)
    (hname : d.knownName? = some e.qualifiedName) {members : List Member}
    (hmembers : s.members d = .ok members) :
    e.properties = firstBy Property.name
        ((members.filterMap fun m => extractProperty? s.catalog m e.owner) ++
          inheritedProperties s config d e.qualifiedName) := by
  obtain ⟨b, rfl, hb⟩ := isBuilt_of_mem_candidates he hd hname hmembers
  have hnames : (build s config).context.ancestorNames .entity d b.entity.qualifiedName =
      (Ancestry.of s d b.entity.qualifiedName).ancestors := by
    rw [Context.ancestorNames, source_build]
    rfl
  rw [hb.properties_eq_firstBy, hnames, flatMap_heirProperties, source_build]
  rfl

/-- An entity with an own member of a name hides the name: as an interface, exactly when the first own
member of the name is transient; as a class, exactly when all own members of the name are transient and
the first inherited property of the name, if there is one, is not stored. -/
theorem hides_process_iff {e : Entity} (he : e ∈ (process s config outDir).graph.nodes)
    (hkind : e.kind = .entity) {d : Declaration}
    (hd : d ∈ candidates s EntityKind.entity.marker)
    (hname : d.knownName? = some e.qualifiedName) {members : List Member}
    (hmembers : s.members d = .ok members) {m : Member} (hm : m ∈ members) {name : String}
    (hshape : m.isShapedAs e.owner name = true) :
    (e.isInterface = true → ((process s config outDir).Hides e name ↔
      ∀ first, members.find? (·.isShapedAs e.owner name) = some first →
        first.isTransient s.catalog = true)) ∧
    (e.isInterface = false → ((process s config outDir).Hides e name ↔
      (∀ m' ∈ members, m'.isShapedAs e.owner name = true → m'.isTransient s.catalog = true) ∧
        HidesFirst name (inheritedProperties s config d e.qualifiedName))) := by
  have hbuilt := hkind ▸ mem_builtOf_kind he
  rw [hides_iff he, ← hidesFirst_iff (nodup_names_of_mem_nodes he),
    properties_eq_firstBy hbuilt hd hname hmembers, hidesFirst_firstBy, hidesFirst_append]
  refine ⟨fun hinterface => ?_, fun hclass => ?_⟩
  · rw [hidesFirst_of_isInterface hinterface]
    apply and_iff_left
    intro hnone
    rw [find?_extractProperty?, Option.map_eq_none_iff, List.find?_eq_none] at hnone
    exact absurd (Bool.and_eq_true_iff.2 ⟨hshape, Bool.or_eq_true_iff.2 (Or.inl hinterface)⟩)
      (hnone m hm)
  · rw [hidesFirst_of_class hclass, find?_eq_none_of_class hclass]
    exact and_congr_right fun hall => forall_prop_of_true hall

end Run

/-! ## Tasks, plans and stages -/

namespace Sample

/-- A reference that is not stored. -/
def transientReference (name type : String) : Member :=
  { reference name type with annotations := some [⟨"ManyToOne", none⟩, ⟨"Transient", none⟩] }

/-- What the others inherit. -/
def linked : Declaration :=
  type .class "Linked" ["Superclass"] [] [field "id" ["Key"], reference "next" "shop.Task"]

def task : Declaration :=
  type .class "Task" ["Entity"] ["Linked"] [transientReference "next" "shop.Task"]

def plan : Declaration :=
  type .interface "Plan" ["Entity"] ["Linked"] [transientReference "next" "shop.Task"]

/-- Two members have the same name as properties, of which only the second is transient. -/
def stage : Declaration :=
  type .interface "Stage" ["Entity"] ["Linked"]
    [reference "next" "shop.Task", getter "getNext" ["Transient"]]

def tasks : List Declaration := [linked, task, plan, stage]

/-- The node is that of the declaration, which has a transient member of the name. -/
def redeclares (d : Declaration) (e : Entity) (name : String) : Bool :=
  d.knownName? == some e.qualifiedName && (d.members.getD []).any fun m =>
    m.isShapedAs e.owner name && m.isTransient (.create true)

end Sample

namespace Run

/-- A plan has a transient member in place of the reference that it inherits. -/
theorem hides_next_of_plan :
    ∃ e ∈ (Sample.run Sample.tasks).graph.nodes,
      Sample.redeclares Sample.plan e "next" = true ∧
      (inheritedProperties (.ofDeclarations Sample.tasks (.create true)) .default Sample.plan
        e.qualifiedName).any (fun p => p.name == "next" && !p.isTransient) = true ∧
      (Sample.run Sample.tasks).Hides e "next" := by
  have hnodes : ((Sample.run Sample.tasks).graph.nodes.any fun e =>
      Sample.redeclares Sample.plan e "next" && e.kind == .entity && e.isInterface &&
      (inheritedProperties (.ofDeclarations Sample.tasks (.create true)) .default Sample.plan
        e.qualifiedName).any (fun p => p.name == "next" && !p.isTransient)) = true := by
    decide +kernel
  have hcandidates : candidates (.ofDeclarations Sample.tasks (.create true))
      EntityKind.entity.marker = [Sample.task, Sample.plan, Sample.stage] := by
    with_unfolding_all rfl
  obtain ⟨e, he, hplan⟩ := List.any_eq_true.1 hnodes
  simp only [Bool.and_eq_true, beq_iff_eq] at hplan
  obtain ⟨⟨⟨hredeclares, hkind⟩, hinterface⟩, hinherited⟩ := hplan
  have hd : Sample.plan ∈ candidates (.ofDeclarations Sample.tasks (.create true))
      EntityKind.entity.marker := by
    rw [hcandidates]
    simp
  have hredeclared := hredeclares
  unfold Sample.redeclares at hredeclared
  rw [Bool.and_eq_true, List.any_eq_true] at hredeclared
  obtain ⟨hname, m, hm, hmember⟩ := hredeclared
  obtain ⟨hshape, htransient⟩ := Bool.and_eq_true_iff.1 hmember
  refine ⟨e, he, hredeclares, hinherited, ?_⟩
  apply ((hides_process_iff he hkind hd (eq_of_beq hname) rfl hm hshape).1 hinterface).2
  -- a plan has this one member only
  intro first hfirst
  have hsame : first = m :=
    (List.mem_singleton.1 (List.mem_of_find?_eq_some hfirst)).trans (List.mem_singleton.1 hm).symm
  rw [hsame]
  exact htransient

/-- A stage and a task have transient members of the name of a reference. The stage has a stored one
in front of it, and the task inherits one. -/
theorem exists_unhidden :
    (∃ e ∈ (Sample.run Sample.tasks).graph.nodes, e.kind = .entity ∧
      Sample.redeclares Sample.stage e "next" = true ∧
        ¬(Sample.run Sample.tasks).Hides e "next") ∧
      ∃ e ∈ (Sample.run Sample.tasks).graph.nodes, e.kind = .entity ∧
        Sample.redeclares Sample.task e "next" = true ∧
          ¬(Sample.run Sample.tasks).Hides e "next" := by
  have hnodes : ([Sample.stage, Sample.task].all fun d =>
      (Sample.run Sample.tasks).graph.nodes.any fun e => e.kind == .entity &&
        Sample.redeclares d e "next" && e.persistentProperties.any (·.name == "next")) = true := by
    decide +kernel
  have hunhidden (d : Declaration) (hd : d ∈ [Sample.stage, Sample.task]) :
      ∃ e ∈ (Sample.run Sample.tasks).graph.nodes, e.kind = .entity ∧
        Sample.redeclares d e "next" = true ∧ ¬(Sample.run Sample.tasks).Hides e "next" := by
    obtain ⟨e, he, hany⟩ := List.any_eq_true.1 (List.all_eq_true.1 hnodes d hd)
    simp only [Bool.and_eq_true, beq_iff_eq, List.any_eq_true] at hany
    obtain ⟨⟨hkind, hredeclares⟩, p, hp, hname⟩ := hany
    exact ⟨e, he, hkind, hredeclares, fun h => h.properties p hp hname⟩
  exact ⟨hunhidden _ (by simp), hunhidden _ (by simp)⟩

end Run

end Metamodel
