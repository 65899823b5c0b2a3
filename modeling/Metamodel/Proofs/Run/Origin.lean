import Metamodel.Proofs.Entity.Naming
import Metamodel.Proofs.Run.Agreement

/-!
# Where properties come from

Every property of a built type is read off a member that instances can use (`Property.IsOf`), and
that member is one of the declaration itself or of an ancestor whose members it takes over
(`DeclarationSource.Declares`). Merging ancestors keeps name, member and kind of a property.
-/

namespace Metamodel

/-- The property is read off the member, which is neither private nor static. -/
structure Property.IsOf (p : Property) (m : Member) : Prop where
  memberName_eq : p.memberName = m.name
  memberKind_eq : p.memberKind = m.kind
  propertyName : m.propertyName? = some p.name
  name_ne : p.name ≠ ""
  notPrivate : m.has .private = false
  notStatic : m.has .static = false

/-- The declaration has a member of the name that instances can use. -/
def DeclarationSource.HasMember (s : DeclarationSource) (d : Declaration) (name : String) : Prop :=
  ∃ members m, s.members d = .ok members ∧ m ∈ members ∧ m.name = name ∧
    m.has .private = false ∧ m.has .static = false

/-- The declaration of a qualified name has a member of the name, or a declaration of one of its
ancestors has one. -/
def DeclarationSource.Declares (s : DeclarationSource) (d : Declaration) (own name : String) :
    Prop :=
  s.HasMember d name ∨
    ∃ d' ∈ s.declarations, ∃ ancestor ∈ (Ancestry.of s d own).ancestors,
      d'.knownName? = some ancestor ∧ s.HasMember d' name

/-! ## Members and their properties -/

theorem isOf_of_extractProperty? {catalog : Catalog} {m : Member} {owner : Owner} {p : Property}
    (h : extractProperty? catalog m owner = some p) : p.IsOf m := by
  unfold extractProperty? at h
  cases hhidden : m.has .private || m.has .static with
  | true =>
    rw [hhidden, if_pos rfl] at h
    cases h
  | false =>
    rw [hhidden, if_neg Bool.false_ne_true] at h
    obtain ⟨hprivate, hstatic⟩ := Bool.or_eq_false_iff.1 hhidden
    cases hname : m.propertyName? with
    | none =>
      rw [hname] at h
      cases h
    | some name =>
      rw [hname] at h
      simp only [Option.ite_none_left_eq_some, Option.some.injEq] at h
      obtain ⟨hne, -, -, -, rfl⟩ := h
      exact ⟨rfl, rfl, hname, hne, hprivate, hstatic⟩

/-- What is extracted from a member has the member's type, and is not inherited. -/
theorem of_extractProperty? {catalog : Catalog} {m : Member} {owner : Owner} {p : Property}
    (h : extractProperty? catalog m owner = some p) :
    p.type = m.type ∧ p.inheritedFrom = none := by
  unfold extractProperty? at h
  split at h
  · cases h
  · split at h
    · cases h
    · simp only [Option.ite_none_left_eq_some, Option.some.injEq] at h
      obtain ⟨-, -, -, -, rfl⟩ := h
      exact ⟨rfl, rfl⟩

namespace Property.IsOf

variable {p : Property} {m : Member}

theorem isNamed (h : p.IsOf m) : p.IsNamed := by
  have hname := h.propertyName
  unfold Member.propertyName? at hname
  rw [Option.ite_none_left_eq_some] at hname
  refine ⟨h.name_ne, ?_, ?_⟩
  · intro hkind
    rw [h.memberKind_eq] at hkind
    rw [if_pos hkind] at hname
    rw [h.memberName_eq]
    exact Option.some.inj hname.2
  · intro hkind
    rw [h.memberKind_eq] at hkind
    rw [if_neg (by simpa using hkind), Option.ite_none_left_eq_some] at hname
    rw [h.memberName_eq]
    exact hname.2.2

/-- A descendant has the property of the same member. -/
theorem heir (h : p.IsOf m) (from? : Option String) :
    ({ p with inheritedFrom := from? } : Property).IsOf m :=
  ⟨h.memberName_eq, h.memberKind_eq, h.propertyName, h.name_ne, h.notPrivate, h.notStatic⟩

end Property.IsOf

theorem DeclarationSource.hasMember_of_isOf {s : DeclarationSource} {d : Declaration}
    {members : List Member} {m : Member} {p : Property} (hmembers : s.members d = .ok members)
    (hm : m ∈ members) (hp : p.IsOf m) : s.HasMember d p.memberName :=
  ⟨members, m, hmembers, hm, hp.memberName_eq.symm, hp.notPrivate, hp.notStatic⟩

/-! ## Built types -/

/-- A property of a built type is extracted from an own member, or an ancestor has it. -/
theorem IsBuilt.mem_properties {c : Context} {kind : EntityKind} {d : Declaration}
    {members : List Member} {b : Built} (h : IsBuilt c kind d members b) {p : Property}
    (hp : p ∈ b.entity.properties) :
    (∃ m ∈ members, extractProperty? c.source.catalog m b.entity.owner = some p) ∨
      ∃ name ∈ c.ancestorNames kind d b.entity.qualifiedName, ∃ e, c.ancestor? name = some e ∧
        p ∈ e.heirProperties := by
  rw [h.properties_eq_firstBy] at hp
  rcases List.mem_append.1 ((firstBy_sublist _).subset hp) with hp | hp
  · exact Or.inl (List.mem_filterMap.1 hp)
  · right
    obtain ⟨e, he, hpe⟩ := List.mem_flatMap.1 hp
    obtain ⟨name, hname, hlookup⟩ := List.mem_filterMap.1 he
    exact ⟨name, hname, e, hlookup, hpe⟩

/-- What is no entity has only properties of its own members. -/
theorem IsBuilt.exists_member {c : Context} {kind : EntityKind} {d : Declaration}
    {members : List Member} {b : Built} (h : IsBuilt c kind d members b) (hkind : kind ≠ .entity)
    {p : Property} (hp : p ∈ b.entity.properties) :
    ∃ m ∈ members, extractProperty? c.source.catalog m b.entity.owner = some p := by
  rw [h.properties_eq_own hkind] at hp
  exact List.mem_filterMap.1 ((firstBy_sublist _).subset hp)

namespace Run

/-! ## Types of a run -/

theorem mem_of_mem_foldl_addCandidate {found ds : List Declaration} {d : Declaration}
    (h : d ∈ ds.foldl addCandidate found) : d ∈ found ∨ d ∈ ds := by
  induction ds generalizing found with
  | nil => exact Or.inl h
  | cons d' ds ih =>
    rw [List.foldl_cons] at h
    rcases ih h with hfound | hds
    · obtain ⟨heq, -⟩ | ⟨heq, -⟩ := addCandidate_cases found d'
      · rw [heq] at hfound
        exact Or.inl hfound
      · rw [heq] at hfound
        rcases List.mem_append.1 hfound with hfound | hnew
        · exact Or.inl hfound
        · rw [List.mem_singleton.1 hnew]
          exact Or.inr List.mem_cons_self
    · exact Or.inr (List.mem_cons_of_mem d' hds)

theorem mem_declarations_of_mem_candidates {s : DeclarationSource} {marker : AnnotationKind}
    {d : Declaration} (h : d ∈ candidates s marker) : d ∈ s.declarations := by
  rcases mem_of_mem_foldl_addCandidate h with h | h
  · cases h
  · exact (List.mem_filter.1 h).1

variable {s : DeclarationSource} {config : Config}

/-- The ancestors that a run finds are superclasses and embeddables that it has built. -/
theorem mem_builtOf_of_ancestor? {name : String} {e : Entity}
    (h : (build s config).context.ancestor? name = some e) :
    e.qualifiedName = name ∧ ∃ kind, kind ≠ .entity ∧ e ∈ builtOf s config kind := by
  have hfound (kind : EntityKind)
      (hget : ((build s config).context.registry kind).get? name = some e) :
      e.qualifiedName = name ∧ e ∈ builtOf s config kind := by
    rw [get?_build] at hget
    have hname := List.find?_some (p := fun x : Entity => x.qualifiedName == name) hget
    exact ⟨eq_of_beq hname, List.mem_of_find?_eq_some hget⟩
  unfold Context.ancestor? at h
  rcases Option.or_eq_some_iff.1 h with h | ⟨-, h⟩
  · obtain ⟨hname, hmem⟩ := hfound .superclass h
    exact ⟨hname, .superclass, by decide, hmem⟩
  · obtain ⟨hname, hmem⟩ := hfound .embeddable h
    exact ⟨hname, .embeddable, by decide, hmem⟩

/-- The properties of an entity are read off members that its declaration or an ancestor has. -/
theorem exists_declaration_of_mem_builtOf {e : Entity} (he : e ∈ builtOf s config .entity) :
    ∃ d ∈ s.declarations, d.knownName? = some e.qualifiedName ∧
      ∀ p ∈ e.properties, p.IsNamed ∧ s.Declares d e.qualifiedName p.memberName := by
  obtain ⟨d, members, b, hd, rfl, hb⟩ := isBuilt_of_mem_builtOf he
  have hmembers := members_of_isBuilt hb
  refine ⟨d, mem_declarations_of_mem_candidates hd, hb.named, ?_⟩
  intro p hp
  rcases hb.mem_properties hp with ⟨m, hm, hextract⟩ | ⟨name, hname, e', hlookup, hheir⟩
  · have hof := isOf_of_extractProperty? hextract
    exact ⟨hof.isNamed, Or.inl (DeclarationSource.hasMember_of_isOf hmembers hm hof)⟩
  · -- the ancestor has taken over nothing, so the member is one of its own declaration
    obtain ⟨rfl, kind, hkind, he'⟩ := mem_builtOf_of_ancestor? hlookup
    obtain ⟨d', members', b', hd', rfl, hb'⟩ := isBuilt_of_mem_builtOf he'
    obtain ⟨q, hq, rfl⟩ := List.mem_map.1 hheir
    obtain ⟨m, hm, hextract⟩ := hb'.exists_member hkind hq
    have hof := isOf_of_extractProperty? hextract
    have hmembers' := members_of_isBuilt hb'
    have hancestor : b'.entity.qualifiedName ∈
        (Ancestry.of s d b.entity.qualifiedName).ancestors := by
      have h : b'.entity.qualifiedName ∈ (Ancestry.of (build s config).context.source d
          b.entity.qualifiedName).ancestors := hname
      rw [source_build] at h
      exact h
    refine ⟨(hof.heir _).isNamed, Or.inr ⟨d', mem_declarations_of_mem_candidates hd', _,
      hancestor, hb'.named, ?_⟩⟩
    exact DeclarationSource.hasMember_of_isOf hmembers' hm (hof.heir _)

/-- Every node is among the types that the run has built of its kind. -/
theorem mem_builtOf_kind {outDir : String} {e : Entity}
    (he : e ∈ (process s config outDir).graph.nodes) : e ∈ builtOf s config e.kind := by
  obtain ⟨kind, hmem⟩ := exists_kind_of_mem_nodes he
  obtain ⟨_, _, b, -, rfl, hb⟩ := isBuilt_of_mem_builtOf hmem
  rw [hb.kind_eq]
  exact hmem

/-- The nodes with an implementation are entities. -/
theorem mem_builtOf_of_hasImplementation {outDir : String} {e : Entity}
    (he : e ∈ (process s config outDir).graph.nodes) (h : e.hasImplementation = true) :
    e ∈ builtOf s config .entity := by
  have hkind : e.kind = .entity := by
    unfold Entity.hasImplementation at h
    rw [Bool.and_eq_true] at h
    exact eq_of_beq h.1
  exact hkind ▸ mem_builtOf_kind he

end Run

end Metamodel
