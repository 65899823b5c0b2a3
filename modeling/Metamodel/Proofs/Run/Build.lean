import Metamodel.Proofs.Entity.Ancestry
import Metamodel.Proofs.Entity.Inheritance
import Metamodel.Run.Build

/-!
# What a build does

A build fails exactly when something about the declaration stands in its way (`obstacle?`), and
gives an entity otherwise. `IsBuilt` collects what is known of that entity, so that nothing else
needs to open `buildEntity`. A build reads the registries only to look up ancestors, and only for
entities (`buildEntity_congr`).
-/

namespace Metamodel

/-- The type that owns the members of an entity. -/
def Entity.owner (e : Entity) : Owner :=
  ⟨e.qualifiedName, e.isInterface, e.isImmutable⟩

/-- What keeps a declaration from being built, if anything does. -/
def DeclarationSource.obstacle? (s : DeclarationSource) (kind : EntityKind) (d : Declaration) :
    Option BuildError :=
  match d.knownName? with
  | none => some (.missingName kind d.simpleName d.source)
  | some name =>
    match unresolvedReference? (s.typeMarks d) with
    | some (mark, key, type) => some (.unresolvedReference mark key name type d.source)
    | none =>
      match s.members d with
      | .error failure => some (.supply failure)
      | .ok _ => none

/-- The names of the ancestors whose members a type takes over: only entities inherit. -/
def Context.ancestorNames (c : Context) (kind : EntityKind) (d : Declaration) (own : String) :
    List String :=
  if kind == .entity then (Ancestry.of c.source d own).ancestors else []

theorem Context.ancestorNames_of_ne (c : Context) {kind : EntityKind} (h : kind ≠ .entity)
    (d : Declaration) (own : String) : c.ancestorNames kind d own = [] := by
  rw [ancestorNames, beq_false_of_ne h]
  rfl

/-- The members of a type itself. -/
def Context.ownMembers (c : Context) (d : Declaration) (owner : Owner) (members : List Member) :
    Members :=
  ⟨(ownProperties c.source.catalog owner d.source members).1,
    members.flatMap (·.listeners c.source.catalog)⟩

/-- What is known of a built entity. -/
structure IsBuilt (c : Context) (kind : EntityKind) (d : Declaration) (members : List Member)
    (b : Built) : Prop where
  named : d.knownName? = some b.entity.qualifiedName
  supplied : c.source.members d = .ok members
  kind_eq : b.entity.kind = kind
  isInterface_eq : b.entity.isInterface = d.isInterface
  properties_eq : b.entity.properties =
    ((c.ownMembers d b.entity.owner members).mergeAll c.ancestor?
      (c.ancestorNames kind d b.entity.qualifiedName)).properties
  listeners_eq : b.entity.listeners =
    ((c.ownMembers d b.entity.owner members).mergeAll c.ancestor?
      (c.ancestorNames kind d b.entity.qualifiedName)).listeners

/-! ## Outcomes -/

theorem DeclarationSource.obstacle_cases {s : DeclarationSource} {kind : EntityKind}
    {d : Declaration} {e : BuildError} (h : s.obstacle? kind d = some e) :
    (d.knownName? = none ∧ e = .missingName kind d.simpleName d.source) ∨
      (∃ name mark key type, d.knownName? = some name ∧
        unresolvedReference? (s.typeMarks d) = some (mark, key, type) ∧
        e = .unresolvedReference mark key name type d.source) ∨
      ∃ name failure, d.knownName? = some name ∧ unresolvedReference? (s.typeMarks d) = none ∧
        s.members d = .error failure ∧ e = .supply failure := by
  unfold obstacle? at h
  cases hname : d.knownName? with
  | none =>
    rw [hname] at h
    exact Or.inl ⟨rfl, (Option.some.inj h).symm⟩
  | some name =>
    cases href : unresolvedReference? (s.typeMarks d) with
    | some ref =>
      rw [hname, href] at h
      exact Or.inr (Or.inl ⟨name, ref.1, ref.2.1, ref.2.2, rfl, rfl, (Option.some.inj h).symm⟩)
    | none =>
      cases hmem : s.members d with
      | error failure =>
        simp only [hname, href, hmem] at h
        exact Or.inr (Or.inr ⟨name, failure, rfl, rfl, rfl, (Option.some.inj h).symm⟩)
      | ok members =>
        simp only [hname, href, hmem] at h
        cases h

theorem DeclarationSource.of_obstacle_eq_none {s : DeclarationSource} {kind : EntityKind}
    {d : Declaration} (h : s.obstacle? kind d = none) :
    ∃ name members, d.knownName? = some name ∧ unresolvedReference? (s.typeMarks d) = none ∧
      s.members d = .ok members := by
  unfold obstacle? at h
  cases hname : d.knownName? with
  | none =>
    rw [hname] at h
    cases h
  | some name =>
    cases href : unresolvedReference? (s.typeMarks d) with
    | some ref =>
      rw [hname, href] at h
      cases h
    | none =>
      cases hmem : s.members d with
      | error failure =>
        simp only [hname, href, hmem] at h
        cases h
      | ok members => exact ⟨name, members, rfl, rfl, rfl⟩

theorem buildEntity_of_obstacle {c : Context} {kind : EntityKind} {d : Declaration}
    {e : BuildError} (h : c.source.obstacle? kind d = some e) :
    buildEntity c d kind = .error e := by
  unfold buildEntity
  rcases DeclarationSource.obstacle_cases h with
    ⟨hname, rfl⟩ | ⟨name, mark, key, type, hname, href, rfl⟩ | ⟨name, failure, hname, href, hmem, rfl⟩
  · simp only [hname]
  · simp only [hname, href]
  · simp only [hname, href, hmem]
    rfl

theorem exists_isBuilt (c : Context) {kind : EntityKind} {d : Declaration}
    (h : c.source.obstacle? kind d = none) :
    ∃ b members, buildEntity c d kind = .ok b ∧ IsBuilt c kind d members b := by
  obtain ⟨name, members, hname, href, hmem⟩ := DeclarationSource.of_obstacle_eq_none h
  unfold buildEntity
  simp only [hname, href, hmem, Except.mapError, bind, Except.bind]
  refine ⟨_, members, rfl, hname, hmem, rfl, rfl, ?_, ?_⟩ <;>
    unfold Context.ancestorNames <;> cases kind == EntityKind.entity <;> rfl

theorem buildEntity_eq_error_iff {c : Context} {kind : EntityKind} {d : Declaration}
    {e : BuildError} :
    buildEntity c d kind = .error e ↔ c.source.obstacle? kind d = some e := by
  refine ⟨fun h => ?_, buildEntity_of_obstacle⟩
  cases ho : c.source.obstacle? kind d with
  | some e' =>
    rw [buildEntity_of_obstacle ho] at h
    cases h
    rfl
  | none =>
    obtain ⟨b, _, hb, -⟩ := exists_isBuilt c ho
    rw [hb] at h
    cases h

theorem isBuilt_of_buildEntity {c : Context} {kind : EntityKind} {d : Declaration} {b : Built}
    (h : buildEntity c d kind = .ok b) : ∃ members, IsBuilt c kind d members b := by
  cases ho : c.source.obstacle? kind d with
  | some e =>
    rw [buildEntity_of_obstacle ho] at h
    cases h
  | none =>
    obtain ⟨b', members, hb, hbuilt⟩ := exists_isBuilt c ho
    rw [hb] at h
    cases h
    exact ⟨members, hbuilt⟩

/-- A built entity keeps the names of its declaration; one that is given to its implementation is
an identifier. -/
theorem names_of_buildEntity {c : Context} {kind : EntityKind} {d : Declaration} {b : Built}
    (h : buildEntity c d kind = .ok b) :
    b.entity.packageName = d.packageName ∧ b.entity.simpleName = d.simpleName ∧
      ∀ n, b.entity.entityName = some n → Naming.isIdentifier n = true := by
  cases ho : c.source.obstacle? kind d with
  | some e =>
    rw [buildEntity_of_obstacle ho] at h
    cases h
  | none =>
    obtain ⟨name, members, hname, href, hmem⟩ := DeclarationSource.of_obstacle_eq_none ho
    unfold buildEntity at h
    simp only [hname, href, hmem, Except.mapError, bind, Except.bind] at h
    cases h
    exact ⟨rfl, rfl, fun n hn => (Option.filter_eq_some_iff.1 hn).2⟩

/-- Whatever it is built as, a declaration gives the same owner of its members. -/
theorem owner_of_buildEntity {c : Context} {kind kind' : EntityKind} {d : Declaration}
    {b b' : Built} (h : buildEntity c d kind = .ok b) (h' : buildEntity c d kind' = .ok b') :
    b.entity.owner = b'.entity.owner := by
  cases ho : c.source.obstacle? kind d with
  | some e =>
    rw [buildEntity_of_obstacle ho] at h
    cases h
  | none =>
    obtain ⟨name, members, hname, href, hmem⟩ := DeclarationSource.of_obstacle_eq_none ho
    unfold buildEntity at h h'
    simp only [hname, href, hmem, Except.mapError, bind, Except.bind] at h h'
    cases h
    cases h'
    rfl

/-! ## Own members -/

theorem fst_foldl_addMember (catalog : Catalog) (owner : Owner) (location : Option Location)
    (acc : List Property × List Diagnostic) (members : List Member) :
    (members.foldl (addMember catalog owner location) acc).1 =
      (members.filterMap fun m => extractProperty? catalog m owner).foldl (keepNew Property.name)
        acc.1 := by
  induction members generalizing acc with
  | nil => rfl
  | cons m members ih =>
    rw [List.foldl_cons, ih, List.filterMap_cons, addMember]
    cases extractProperty? catalog m owner with
    | none => rfl
    | some p =>
      simp only [List.foldl_cons, keepNew]
      split <;> rfl

/-- Own properties are those of the members, of each name the first. -/
theorem properties_ownMembers (c : Context) (d : Declaration) (owner : Owner)
    (members : List Member) :
    (c.ownMembers d owner members).properties =
      firstBy Property.name
        (members.filterMap fun m => extractProperty? c.source.catalog m owner) := by
  rw [firstBy_eq_foldl]
  exact fst_foldl_addMember _ _ _ _ _

section

variable {c : Context} {kind : EntityKind} {d : Declaration} {members : List Member} {b : Built}

/-- The properties of a built entity are its own and those of its ancestors, of each name the
first. -/
theorem IsBuilt.properties_eq_firstBy (h : IsBuilt c kind d members b) :
    b.entity.properties = firstBy Property.name
      ((members.filterMap fun m => extractProperty? c.source.catalog m b.entity.owner) ++
        ((c.ancestorNames kind d b.entity.qualifiedName).filterMap c.ancestor?).flatMap
          Entity.heirProperties) := by
  rw [h.properties_eq]
  exact Members.properties_mergeAll (properties_ownMembers c d b.entity.owner members) _ _

/-- What is built as something else than an entity has its own properties only. -/
theorem IsBuilt.properties_eq_own (h : IsBuilt c kind d members b) (hkind : kind ≠ .entity) :
    b.entity.properties = firstBy Property.name
      (members.filterMap fun m => extractProperty? c.source.catalog m b.entity.owner) := by
  rw [h.properties_eq_firstBy, c.ancestorNames_of_ne hkind]
  exact congrArg _ (List.append_nil _)

/-- No two properties of a built entity have the same name. -/
theorem IsBuilt.nodup_names (h : IsBuilt c kind d members b) :
    (b.entity.properties.map Property.name).Nodup := by
  rw [h.properties_eq_firstBy]
  exact nodup_map_firstBy _

end

/-! ## What a build reads -/

theorem Members.mergeAll_congr {lookup lookup' : String → Option Entity} {names : List String}
    (h : ∀ name ∈ names, lookup name = lookup' name) (m : Members) :
    m.mergeAll lookup names = m.mergeAll lookup' names := by
  rw [mergeAll, List.filterMap_congr h, mergeAll]

/-- A build depends on the catalog, the prefixes and the declaration's own members, and for
entities on the ancestry and on what has been built of the ancestors. -/
theorem buildEntity_congr {c c' : Context} {kind : EntityKind} {d : Declaration}
    (hcatalog : c.source.catalog = c'.source.catalog)
    (hprefixes : c.config.classPrefixes = c'.config.classPrefixes)
    (hmembers : c.source.members d = c'.source.members d)
    (hancestry : kind = .entity → ∀ own, Ancestry.of c.source d own = Ancestry.of c'.source d own)
    (hlookup : kind = .entity → ∀ own, ∀ name ∈ (Ancestry.of c'.source d own).ancestors,
      c.ancestor? name = c'.ancestor? name) :
    buildEntity c d kind = buildEntity c' d kind := by
  unfold buildEntity DeclarationSource.typeMarks
  rw [hcatalog, hprefixes, hmembers]
  by_cases hkind : kind = .entity
  · simp only [hancestry hkind, Members.mergeAll_congr (hlookup hkind _)]
  · have hne : (kind == EntityKind.entity) = false := beq_false_of_ne hkind
    simp only [hne, Bool.false_eq_true, if_false]

end Metamodel
