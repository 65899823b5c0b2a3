import Metamodel.Proofs.Run.Isolation
import Metamodel.Proofs.Run.Shadowing

/-!
# What is said of the members of a type

Of the members that map to one property the first is kept. Each of the others is told of, and nothing
else is said of them (`accountsFor_of_buildEntity`). Of a property that is kept it is said when its
member has several relationships, and when its type does not resolve. Arguments of the type may not
resolve either, and of those nothing is said (`unresolvedReports_of_buildEntity`).
-/

namespace Metamodel

/-! ## Definitions -/

/-- Whether the member has an annotation of the kind, in whichever vocabulary. -/
def Member.isAnnotated (m : Member) (catalog : Catalog) (kind : AnnotationKind) : Bool :=
  (m.annotations.getD []).any fun a => (catalog.lookup? a.name).any (·.kind == kind)

/-- The relationships that a member is annotated with, in the order of their priority. -/
def Member.relationships (m : Member) (catalog : Catalog) : List Cardinality :=
  [.oneToOne, .oneToMany, .manyToOne, .manyToMany].filter fun c => m.isAnnotated catalog c.mark

/-- The members that map to properties, each with its property. -/
def Owner.mapped (owner : Owner) (catalog : Catalog) (members : List Member) :
    List (Member × Property) :=
  members.filterMap fun m => (extractProperty? catalog m owner).map (m, ·)

/-- Of the members that map to a property, the first of each name. -/
def Owner.kept (owner : Owner) (catalog : Catalog) (members : List Member) :
    List (Member × Property) :=
  firstBy (·.2.name) (owner.mapped catalog members)

/-- The members that map to a property of an earlier one. -/
def Owner.dropped (owner : Owner) (catalog : Catalog) (members : List Member) :
    List (Member × Property) :=
  repeatsBy (·.2.name) (owner.mapped catalog members)

/-- The error that a member has several relationships. -/
def multipleFinding (catalog : Catalog) (owner : String) (location : Option Location) (m : Member)
    (p : Property) : Diagnostic :=
  ⟨.multipleCardinality, .error, "Property " ++ p.name ++ " of " ++ owner ++
    " declares several relationships (" ++
    ", ".intercalate ((m.relationships catalog).map Cardinality.text) ++ ")", some owner,
    some p.name, m.source.or location⟩

/-- The error that the type of a property does not resolve. -/
def unresolvedFinding (owner : String) (place : Option Location) (p : Property) : Diagnostic :=
  ⟨.unresolvedType, .error, "Type " ++ p.type.name ++ " of " ++ owner ++ "." ++ p.name ++
    " cannot be resolved", some owner, some p.name, place⟩

/-- The error that the name given to the implementation is no identifier. -/
def DeclarationSource.nameFindings (s : DeclarationSource) (d : Declaration) (own : String) :
    List Diagnostic :=
  let given := (findMark? (s.typeMarks d) .entity).bind (·.getString? "name")
  ((given.filter (· ≠ "")).filter (!Naming.isIdentifier ·)).toList.map fun n =>
    ⟨.invalidEntityName, .error, "Invalid class identifier " ++ n ++ " on " ++ own, some own, none,
      d.source⟩

/-- The errors that supertypes of an entity do not resolve. -/
def DeclarationSource.supertypeFindings (s : DeclarationSource) (kind : EntityKind)
    (d : Declaration) (own : String) : List Diagnostic :=
  if kind == .entity then (Ancestry.of s d own).unresolved.map (unresolvedSupertype own d.source)
  else []

/-- Every member that maps to a property is accounted for: as an own property, or else with a word about
it. -/
structure Built.AccountsFor (b : Built) (s : DeclarationSource) (kind : EntityKind) (d : Declaration)
    (members : List Member) : Prop where
  own : b.entity.properties.filter (·.inheritedFrom.isNone) =
    (b.entity.owner.kept s.catalog members).map (·.2)
  complete : (b.entity.owner.kept s.catalog members ++ b.entity.owner.dropped s.catalog members).Perm
    (b.entity.owner.mapped s.catalog members)
  duplicates : b.diagnostics.filter (·.code == .duplicateMember) =
    (b.entity.owner.dropped s.catalog members).map fun x =>
      droppedFinding b.entity.qualifiedName d.source x.1 x.2
  multiples : b.diagnostics.filter (·.code == .multipleCardinality) =
    ((b.entity.owner.kept s.catalog members).filter fun x =>
      2 ≤ (x.1.relationships s.catalog).length).map fun x =>
        multipleFinding s.catalog b.entity.qualifiedName d.source x.1 x.2
  others : b.diagnostics.filter (fun f =>
      f.code != .duplicateMember && f.code != .multipleCardinality) =
    s.nameFindings d b.entity.qualifiedName ++
      ((b.entity.owner.kept s.catalog members).filter (·.2.type.isUnresolved)).map (fun x =>
        unresolvedFinding b.entity.qualifiedName (x.1.source.or d.source) x.2) ++
      s.supertypeFindings kind d b.entity.qualifiedName
  /-- the cardinality is the first of the relationships, in whatever order these are written -/
  cardinality : ∀ x ∈ b.entity.owner.kept s.catalog members,
    x.2.cardinality = (x.1.relationships s.catalog).head? ∧
      ∀ as, (x.1.annotations.getD []).Perm as →
        ∃ p, extractProperty? s.catalog { x.1 with annotations := some as } b.entity.owner = some p ∧
          p.name = x.2.name ∧ p.cardinality = x.2.cardinality

/-! ## Single members -/

theorem hasMark_marks (m : Member) (catalog : Catalog) (kind : AnnotationKind) :
    hasMark (m.marks catalog) kind = m.isAnnotated catalog kind :=
  hasMark_marksOf catalog _ kind

theorem declaredCardinalities_marks (m : Member) (catalog : Catalog) :
    declaredCardinalities (m.marks catalog) = m.relationships catalog := by
  unfold declaredCardinalities
  simp only [hasMark_marks]
  rfl

theorem keptFindings_eq (catalog : Catalog) (owner : String) (location : Option Location)
    (m : Member) (p : Property) : keptFindings catalog owner location m p =
      (if 2 ≤ (m.relationships catalog).length then [multipleFinding catalog owner location m p]
        else []) ++
      if p.type.isUnresolved then [unresolvedFinding owner (m.source.or location) p] else [] := by
  unfold keptFindings
  rw [declaredCardinalities_marks]
  rfl

theorem cardinality_of_extractProperty? {catalog : Catalog} {m : Member} {owner : Owner}
    {p : Property} (h : extractProperty? catalog m owner = some p) :
    p.cardinality = (m.relationships catalog).head? := by
  obtain ⟨name, -, -, rfl⟩ := extractProperty?_eq_some_iff.1 h
  rw [← declaredCardinalities_marks]
  rfl

theorem Member.isAnnotated_perm {m : Member} {as : List Annotation}
    (h : (m.annotations.getD []).Perm as) (catalog : Catalog) (kind : AnnotationKind) :
    ({ m with annotations := some as } : Member).isAnnotated catalog kind =
      m.isAnnotated catalog kind :=
  h.symm.any_eq

/-- In whatever order its annotations are written, a member maps to a property of the same name and
cardinality. -/
theorem extractProperty?_perm {catalog : Catalog} {m : Member} {owner : Owner} {p : Property}
    (h : extractProperty? catalog m owner = some p) {as : List Annotation}
    (has : (m.annotations.getD []).Perm as) :
    ∃ q, extractProperty? catalog { m with annotations := some as } owner = some q ∧
      q.name = p.name ∧ q.cardinality = p.cardinality := by
  have hcardinality := cardinality_of_extractProperty? h
  obtain ⟨name, hshape, hkept, rfl⟩ := extractProperty?_eq_some_iff.1 h
  have hkept' : owner.keeps catalog { m with annotations := some as } = true := by
    rw [← hkept, Owner.keeps, Owner.keeps, Member.isTransient, Member.isTransient, hasMark_marks,
      hasMark_marks, Member.isAnnotated_perm has]
  have hq := extractProperty?_of_isShapedAs (m := { m with annotations := some as }) hshape hkept'
  refine ⟨_, hq, rfl, ?_⟩
  rw [cardinality_of_extractProperty? hq, hcardinality]
  unfold Member.relationships
  simp only [Member.isAnnotated_perm has]

/-! ## All members -/

/-- What is said of a member that maps to a property, which can be the first of its name. -/
def memberFindings (catalog : Catalog) (owner : String) (location : Option Location)
    (x : (Member × Property) × Bool) : List Diagnostic :=
  if x.2 then keptFindings catalog owner location x.1.1 x.1.2
  else [droppedFinding owner location x.1.1 x.1.2]

/-- A member that maps to a property adds its findings, and the property's name is one of those that
there are. -/
theorem addMember_of_mapped {catalog : Catalog} {owner : Owner} {m : Member} {p : Property}
    (hp : extractProperty? catalog m owner = some p) (location : Option Location)
    (acc : List Property × List Diagnostic) :
    (addMember catalog owner location acc m).2 = acc.2 ++
        memberFindings catalog owner.qualifiedName location
          ((m, p), !acc.1.any (·.name == p.name)) ∧
      ∀ name, (addMember catalog owner location acc m).1.any (·.name == name) =
        (acc.1.any (·.name == name) || p.name == name) := by
  unfold addMember
  rw [hp]
  cases hany : acc.1.any (·.name == p.name) with
  | true =>
    simp only [hany, if_true]
    refine ⟨rfl, fun name => ?_⟩
    by_cases hname : p.name = name
    · rw [← hname, hany, Bool.true_or]
    · rw [beq_false_of_ne hname, Bool.or_false]
  | false =>
    simp only [hany, Bool.false_eq_true, if_false]
    refine ⟨rfl, fun name => ?_⟩
    rw [List.any_append, List.any_cons, List.any_nil, Bool.or_false]

/-- Which members are the first of their names depends on those before them that map to a property. -/
theorem snd_foldl_addMember (catalog : Catalog) (owner : Owner) (location : Option Location)
    (members : List Member) (acc : List Property × List Diagnostic)
    (before : List (Member × Property))
    (h : ∀ name, acc.1.any (·.name == name) = before.any (·.2.name == name)) :
    (members.foldl (addMember catalog owner location) acc).2 = acc.2 ++
      (flagFirsts (·.2.name) before (owner.mapped catalog members)).flatMap
        (memberFindings catalog owner.qualifiedName location) := by
  induction members generalizing acc before with
  | nil => exact (List.append_nil _).symm
  | cons m members ih =>
    rw [List.foldl_cons, Owner.mapped, List.filterMap_cons]
    cases hp : extractProperty? catalog m owner with
    | none =>
      have hstep : addMember catalog owner location acc m = acc := by
        rw [addMember, hp]
      rw [hstep, ih acc before h]
      rfl
    | some p =>
      obtain ⟨hfindings, hnames⟩ := addMember_of_mapped hp location acc
      have hbefore (name : String) : (addMember catalog owner location acc m).1.any (·.name == name) =
          (before ++ [(m, p)]).any (·.2.name == name) := by
        rw [hnames, h, List.any_append, List.any_cons, List.any_nil, Bool.or_false]
      simp only [Option.map_some]
      rw [ih _ _ hbefore, hfindings, flagFirsts, List.flatMap_cons, ← h p.name, List.append_assoc]
      rfl

/-- What is said of a declaration that is built: of the name given to it, of its members, and of its
supertypes. -/
theorem IsBuilt.diagnostics_eq {c : Context} {kind : EntityKind} {d : Declaration}
    {members : List Member} {b : Built} (hb : IsBuilt c kind d members b)
    (h : buildEntity c d kind = .ok b) :
    b.diagnostics = c.source.nameFindings d b.entity.qualifiedName ++
      (flagFirsts (·.2.name) [] (b.entity.owner.mapped c.source.catalog members)).flatMap
        (memberFindings c.source.catalog b.entity.qualifiedName d.source) ++
      c.source.supertypeFindings kind d b.entity.qualifiedName := by
  have hfold := snd_foldl_addMember c.source.catalog b.entity.owner d.source members ([], []) []
    (fun _ => rfl)
  rw [List.nil_append] at hfold
  have howner : b.entity.owner.qualifiedName = b.entity.qualifiedName := rfl
  rw [← howner, ← hfold, howner]
  cases ho : c.source.obstacle? kind d with
  | some e =>
    rw [buildEntity_of_obstacle ho] at h
    cases h
  | none =>
    obtain ⟨name, members', hname, href, hmem⟩ := DeclarationSource.of_obstacle_eq_none ho
    obtain rfl : members = members' := Except.ok.inj (hb.supplied.symm.trans hmem)
    unfold buildEntity at h
    simp only [hname, href, hmem, Except.mapError, bind, Except.bind] at h
    cases h
    rfl

/-! ## Own properties -/

theorem mem_mapped_iff {owner : Owner} {catalog : Catalog} {members : List Member}
    {x : Member × Property} :
    x ∈ owner.mapped catalog members ↔
      x.1 ∈ members ∧ extractProperty? catalog x.1 owner = some x.2 := by
  unfold Owner.mapped
  rw [List.mem_filterMap]
  constructor
  · rintro ⟨m, hm, hx⟩
    obtain ⟨p, hp, rfl⟩ := Option.map_eq_some_iff.1 hx
    exact ⟨hm, hp⟩
  · rintro ⟨hm, hp⟩
    exact ⟨x.1, hm, Option.map_eq_some_iff.2 ⟨x.2, hp, rfl⟩⟩

theorem map_snd_mapped (owner : Owner) (catalog : Catalog) (members : List Member) :
    (owner.mapped catalog members).map (·.2) =
      members.filterMap fun m => extractProperty? catalog m owner := by
  rw [Owner.mapped, List.map_filterMap]
  refine List.filterMap_congr fun m _ => ?_
  cases extractProperty? catalog m owner <;> rfl

/-- What a type does not inherit is what its first members of each name map to. -/
theorem IsBuilt.own_properties {c : Context} {kind : EntityKind} {d : Declaration}
    {members : List Member} {b : Built} (h : IsBuilt c kind d members b) :
    b.entity.properties.filter (·.inheritedFrom.isNone) =
      (b.entity.owner.kept c.source.catalog members).map (·.2) := by
  rw [Owner.kept, map_firstBy, map_snd_mapped, h.properties_eq_firstBy, firstBy_append,
    List.filter_append, List.filter_eq_self.2, List.filter_eq_nil_iff.2, List.append_nil]
  · intro p hp
    have hmem := List.mem_of_mem_filter ((firstBy_sublist _).subset hp)
    obtain ⟨e, -, he⟩ := List.mem_flatMap.1 hmem
    obtain ⟨q, -, rfl⟩ := List.mem_map.1 he
    simp
  · intro p hp
    obtain ⟨m, -, hm⟩ := List.mem_filterMap.1 ((firstBy_sublist _).subset hp)
    obtain ⟨name, -, -, rfl⟩ := extractProperty?_eq_some_iff.1 hm
    rfl

/-! ## Remarks of a code -/

section Codes

variable (catalog : Catalog) (owner : String) (location : Option Location)
  (x : (Member × Property) × Bool)

theorem duplicates_memberFindings :
    (memberFindings catalog owner location x).filter (·.code == .duplicateMember) =
      if !x.2 then [droppedFinding owner location x.1.1 x.1.2] else [] := by
  unfold memberFindings
  rw [keptFindings_eq]
  cases x.2 with
  | false => rfl
  | true =>
    simp only [if_true, List.filter_append]
    split <;> split <;> rfl

theorem multiples_memberFindings :
    (memberFindings catalog owner location x).filter (·.code == .multipleCardinality) =
      if x.2 && decide (2 ≤ (x.1.1.relationships catalog).length) then
        [multipleFinding catalog owner location x.1.1 x.1.2] else [] := by
  unfold memberFindings
  rw [keptFindings_eq]
  cases x.2 with
  | false => rfl
  | true =>
    simp only [if_true, List.filter_append, Bool.true_and, decide_eq_true_eq]
    split <;> split <;> rfl

theorem others_memberFindings :
    (memberFindings catalog owner location x).filter (fun f =>
        f.code != .duplicateMember && f.code != .multipleCardinality) =
      if x.2 && x.1.2.type.isUnresolved then [unresolvedFinding owner (x.1.1.source.or location) x.1.2]
      else [] := by
  unfold memberFindings
  rw [keptFindings_eq]
  cases x.2 with
  | false => rfl
  | true =>
    simp only [if_true, List.filter_append, Bool.true_and]
    split <;> split <;> rfl

end Codes

theorem code_of_mem_nameFindings {s : DeclarationSource} {d : Declaration} {own : String}
    {f : Diagnostic} (h : f ∈ s.nameFindings d own) : f.code = .invalidEntityName := by
  obtain ⟨n, -, rfl⟩ := List.mem_map.1 h
  rfl

theorem exists_of_mem_supertypeFindings {s : DeclarationSource} {kind : EntityKind} {d : Declaration}
    {own : String} {f : Diagnostic} (h : f ∈ s.supertypeFindings kind d own) :
    ∃ name, f = unresolvedSupertype own d.source name := by
  unfold DeclarationSource.supertypeFindings at h
  split at h
  · obtain ⟨name, -, rfl⟩ := List.mem_map.1 h
    exact ⟨name, rfl⟩
  · cases h

theorem code_of_mem_supertypeFindings {s : DeclarationSource} {kind : EntityKind} {d : Declaration}
    {own : String} {f : Diagnostic} (h : f ∈ s.supertypeFindings kind d own) :
    f.code = .unresolvedType := by
  obtain ⟨name, rfl⟩ := exists_of_mem_supertypeFindings h
  rfl

namespace IsBuilt

variable {c : Context} {kind : EntityKind} {d : Declaration} {members : List Member} {b : Built}

/-- Of what is said of a declaration that is built, the remarks of some codes. -/
theorem filter_diagnostics (hb : IsBuilt c kind d members b) (h : buildEntity c d kind = .ok b)
    (keep : DiagnosticCode → Bool) :
    b.diagnostics.filter (fun f => keep f.code) =
      (if keep .invalidEntityName then c.source.nameFindings d b.entity.qualifiedName else []) ++
      (flagFirsts (·.2.name) [] (b.entity.owner.mapped c.source.catalog members)).flatMap
        (fun x => (memberFindings c.source.catalog b.entity.qualifiedName d.source x).filter
          fun f => keep f.code) ++
      if keep .unresolvedType then c.source.supertypeFindings kind d b.entity.qualifiedName
      else [] := by
  rw [hb.diagnostics_eq h, List.filter_append, List.filter_append, List.filter_flatMap,
    Graph.filter_of_code code_of_mem_nameFindings,
    Graph.filter_of_code code_of_mem_supertypeFindings]

theorem filter_duplicates (hb : IsBuilt c kind d members b) (h : buildEntity c d kind = .ok b) :
    b.diagnostics.filter (·.code == .duplicateMember) =
      (b.entity.owner.dropped c.source.catalog members).map fun x =>
        droppedFinding b.entity.qualifiedName d.source x.1 x.2 := by
  rw [hb.filter_diagnostics h (· == .duplicateMember), if_neg (by decide), if_neg (by decide),
    List.nil_append, List.append_nil]
  simp only [duplicates_memberFindings]
  rw [flatMap_flagFirsts_not fun x : Member × Property =>
    droppedFinding b.entity.qualifiedName d.source x.1 x.2]
  rfl

theorem filter_multiples (hb : IsBuilt c kind d members b) (h : buildEntity c d kind = .ok b) :
    b.diagnostics.filter (·.code == .multipleCardinality) =
      ((b.entity.owner.kept c.source.catalog members).filter fun x =>
        2 ≤ (x.1.relationships c.source.catalog).length).map fun x =>
          multipleFinding c.source.catalog b.entity.qualifiedName d.source x.1 x.2 := by
  rw [hb.filter_diagnostics h (· == .multipleCardinality), if_neg (by decide), if_neg (by decide),
    List.nil_append, List.append_nil]
  simp only [multiples_memberFindings]
  rw [flatMap_flagFirsts
    (fun x : Member × Property => decide (2 ≤ (x.1.relationships c.source.catalog).length))
    (fun x => multipleFinding c.source.catalog b.entity.qualifiedName d.source x.1 x.2)]
  rfl

/-- Apart from that, types are said not to resolve, and names to be no identifiers. -/
theorem filter_others (hb : IsBuilt c kind d members b) (h : buildEntity c d kind = .ok b) :
    b.diagnostics.filter (fun f =>
        f.code != .duplicateMember && f.code != .multipleCardinality) =
      c.source.nameFindings d b.entity.qualifiedName ++
        ((b.entity.owner.kept c.source.catalog members).filter (·.2.type.isUnresolved)).map (fun x =>
          unresolvedFinding b.entity.qualifiedName (x.1.source.or d.source) x.2) ++
        c.source.supertypeFindings kind d b.entity.qualifiedName := by
  rw [hb.filter_diagnostics h fun code =>
    code != .duplicateMember && code != .multipleCardinality, if_pos (by decide),
    if_pos (by decide)]
  simp only [others_memberFindings]
  rw [flatMap_flagFirsts (fun x : Member × Property => x.2.type.isUnresolved)
    (fun x => unresolvedFinding b.entity.qualifiedName (x.1.source.or d.source) x.2)]
  rfl

end IsBuilt

/-- Whatever is built of a declaration accounts for its members. -/
theorem accountsFor_of_buildEntity {c : Context} {kind : EntityKind} {d : Declaration} {b : Built}
    (h : buildEntity c d kind = .ok b) :
    ∃ members, c.source.members d = .ok members ∧ b.AccountsFor c.source kind d members := by
  obtain ⟨members, hb⟩ := isBuilt_of_buildEntity h
  refine ⟨members, hb.supplied, hb.own_properties, firstBy_append_repeatsBy_perm _,
    hb.filter_duplicates h, hb.filter_multiples h, hb.filter_others h, fun x hx => ?_⟩
  obtain ⟨-, hp⟩ := mem_mapped_iff.1 ((firstBy_sublist _).subset hx)
  exact ⟨cardinality_of_extractProperty? hp, fun as has => extractProperty?_perm hp has⟩

theorem exists_ok_of_any {ε α : Type} {x : Except ε α} (P : α → Bool)
    (h : x.toOption.any P = true) : ∃ a, x = .ok a ∧ P a = true := by
  cases x with
  | error e => cases h
  | ok a => exact ⟨a, rfl, h⟩

namespace Sample

theorem exists_built {d : Declaration} {kind : EntityKind} (P : Built → Bool)
    (h : (buildEntity context d kind).toOption.any P = true) :
    ∃ b, buildEntity context d kind = .ok b ∧ P b = true :=
  exists_ok_of_any P h

/-- A class with two members of one name, and one with two relationships. -/
def booking : Declaration :=
  type .class "Booking" ["Entity"] []
    [field "name" ["Key"], getter "getName" ["ManyToOne", "OneToOne"],
      field "room" ["ManyToOne", "OneToOne"]]

end Sample

theorem accountsFor_booking :
    ∃ b, buildEntity Sample.context Sample.booking .entity = .ok b ∧
      b.entity.properties.map (fun p => (p.name, p.memberName, p.cardinality)) =
        [("name", "name", none), ("room", "room", some .oneToOne)] ∧
      b.diagnostics.map (·.message) =
        ["Member getName of shop.Booking maps to existing property name; first declaration kept",
          "Property room of shop.Booking declares several relationships (ONE_TO_ONE, MANY_TO_ONE)"] ∧
      ∃ members, Sample.context.source.members Sample.booking = .ok members ∧
        b.AccountsFor Sample.context.source .entity Sample.booking members := by
  obtain ⟨b, hb, hexpected⟩ := @Sample.exists_built Sample.booking .entity
    (fun b => b.entity.properties.map (fun p => (p.name, p.memberName, p.cardinality)) ==
        [("name", "name", none), ("room", "room", some .oneToOne)] &&
      b.diagnostics.map (·.message) ==
        ["Member getName of shop.Booking maps to existing property name; first declaration kept",
          "Property room of shop.Booking declares several relationships (ONE_TO_ONE, MANY_TO_ONE)"])
    (by decide +kernel)
  simp only [Bool.and_eq_true, beq_iff_eq] at hexpected
  exact ⟨b, hb, hexpected.1, hexpected.2, accountsFor_of_buildEntity hb⟩

/-! ## Unresolved types -/

/-- The reports that the type of a property does not resolve. -/
def Built.unresolvedReports (b : Built) (property : String) : List Diagnostic :=
  b.diagnostics.filter fun f => f.code == .unresolvedType && f.property == some property

/-- The type does not resolve, or an argument of it does not, at whatever depth. -/
inductive TypeRef.MentionsUnresolved : TypeRef → Prop
  | self {t : TypeRef} (h : t.isUnresolved = true) : MentionsUnresolved t
  | arg {t u : TypeRef} (hu : u ∈ t.args) (h : MentionsUnresolved u) : MentionsUnresolved t

theorem source_of_extractProperty? {catalog : Catalog} {m : Member} {owner : Owner} {p : Property}
    (h : extractProperty? catalog m owner = some p) : p.source = m.source := by
  obtain ⟨name, -, -, rfl⟩ := extractProperty?_eq_some_iff.1 h
  rfl

/-- A member maps to an own property when it is the first of its name. -/
theorem IsBuilt.exists_kept {c : Context} {kind : EntityKind} {d : Declaration}
    {members : List Member} {b : Built} (hb : IsBuilt c kind d members b) {p : Property}
    (hp : p ∈ b.entity.properties) (hown : p.inheritedFrom = none) :
    ∃ m, (m, p) ∈ b.entity.owner.kept c.source.catalog members := by
  have hmem : p ∈ b.entity.properties.filter (·.inheritedFrom.isNone) :=
    List.mem_filter.2 ⟨hp, by rw [hown]; rfl⟩
  rw [hb.own_properties] at hmem
  obtain ⟨⟨m, p⟩, hx, rfl⟩ := List.mem_map.1 hmem
  exact ⟨m, hx⟩

/-- That something does not resolve is said of kept members, and of supertypes, which are no
properties. -/
theorem IsBuilt.filter_unresolved {c : Context} {kind : EntityKind} {d : Declaration}
    {members : List Member} {b : Built} (hb : IsBuilt c kind d members b)
    (h : buildEntity c d kind = .ok b) (keep : Option String → Bool) :
    b.diagnostics.filter (fun f => f.code == .unresolvedType && keep f.property) =
      (((b.entity.owner.kept c.source.catalog members).filter (·.2.type.isUnresolved)).filter
        fun x => keep (some x.2.name)).map (fun x =>
          unresolvedFinding b.entity.qualifiedName (x.1.source.or d.source) x.2) ++
      if keep none then c.source.supertypeFindings kind d b.entity.qualifiedName else [] := by
  have hothers : b.diagnostics.filter (fun f => f.code == .unresolvedType && keep f.property) =
      (b.diagnostics.filter fun f =>
        f.code != .duplicateMember && f.code != .multipleCardinality).filter fun f =>
          f.code == .unresolvedType && keep f.property := by
    rw [List.filter_filter]
    refine List.filter_congr fun f _ => ?_
    cases f.code <;> simp
  have hname : (c.source.nameFindings d b.entity.qualifiedName).filter
      (fun f => f.code == .unresolvedType && keep f.property) = [] := by
    refine List.filter_eq_nil_iff.2 fun f hf => ?_
    simp [code_of_mem_nameFindings hf]
  have hsuper : (c.source.supertypeFindings kind d b.entity.qualifiedName).filter
      (fun f => f.code == .unresolvedType && keep f.property) =
        if keep none then c.source.supertypeFindings kind d b.entity.qualifiedName else [] := by
    have hkeep : ∀ f ∈ c.source.supertypeFindings kind d b.entity.qualifiedName,
        (f.code == .unresolvedType && keep f.property) = keep none := by
      intro f hf
      obtain ⟨name, rfl⟩ := exists_of_mem_supertypeFindings hf
      rfl
    rw [List.filter_congr hkeep]
    cases keep none <;> simp
  rw [hothers, hb.filter_others h, List.filter_append, List.filter_append, hname, hsuper,
    List.nil_append, List.filter_map]
  rfl

/-- The reports about a name are those about the first member that maps to it. -/
theorem IsBuilt.unresolvedReports_eq {c : Context} {kind : EntityKind} {d : Declaration}
    {members : List Member} {b : Built} (hb : IsBuilt c kind d members b)
    (h : buildEntity c d kind = .ok b) {m : Member} {p : Property}
    (hx : (m, p) ∈ b.entity.owner.kept c.source.catalog members) :
    b.unresolvedReports p.name =
      if p.type.isUnresolved then
        [unresolvedFinding b.entity.qualifiedName (m.source.or d.source) p] else [] := by
  have hsingle : (b.entity.owner.kept c.source.catalog members).filter
      (fun x => some x.2.name == some p.name) = [(m, p)] :=
    filter_eq_singleton (nodup_map_firstBy _) hx
  have hkept : ((b.entity.owner.kept c.source.catalog members).filter
      (·.2.type.isUnresolved)).filter (fun x => some x.2.name == some p.name) =
        if p.type.isUnresolved then [(m, p)] else [] := by
    rw [List.filter_comm, hsingle, List.filter_cons, List.filter_nil]
  rw [Built.unresolvedReports, hb.filter_unresolved h (· == some p.name), hkept]
  cases p.type.isUnresolved <;> rfl

/-- Of an own property it is reported, once, that its type does not resolve, and nothing else: of a
type that only has arguments which do not resolve there is no report, although a relationship to such
an argument has no target. -/
theorem unresolvedReports_of_buildEntity {c : Context} {kind : EntityKind} {d : Declaration}
    {b : Built} (h : buildEntity c d kind = .ok b) {p : Property} (hp : p ∈ b.entity.properties)
    (hown : p.inheritedFrom = none) :
    b.unresolvedReports p.name =
        (if p.type.isUnresolved then
          [unresolvedFinding b.entity.qualifiedName (p.source.or d.source) p] else []) ∧
      (p.type.MentionsUnresolved → (b.unresolvedReports p.name = [] ↔
        p.type.isUnresolved = false ∧ ∃ t ∈ p.type.args, t.MentionsUnresolved)) ∧
      ((relationshipTarget? p.type p.isCollection).any (·.isUnresolved) = true →
        ∀ entities superclasses, Graph.targetOf? entities superclasses p = none) := by
  obtain ⟨members, hb⟩ := isBuilt_of_buildEntity h
  obtain ⟨m, hx⟩ := hb.exists_kept hp hown
  obtain ⟨-, hextract⟩ := mem_mapped_iff.1 ((firstBy_sublist _).subset hx)
  have hreports := hb.unresolvedReports_eq h hx
  rw [← source_of_extractProperty? hextract] at hreports
  refine ⟨hreports, fun hmentions => ?_, fun htarget entities superclasses => ?_⟩
  · rw [hreports]
    cases hresolved : p.type.isUnresolved with
    | true => simp
    | false =>
      refine ⟨fun _ => ⟨rfl, ?_⟩, fun _ => rfl⟩
      cases hmentions with
      | self hself => rw [hresolved] at hself; cases hself
      | arg hu hmentioned => exact ⟨_, hu, hmentioned⟩
  · obtain ⟨t, ht, hunresolved⟩ := (Option.any_eq_true _ _).1 htarget
    have hkind : t.kind = .unresolved := eq_of_beq hunresolved
    unfold Graph.targetOf?
    rw [ht, Option.filter_some, hkind]
    split <;> rfl

namespace Sample

def missing : TypeRef :=
  .unresolved (some "Missing")

/-- A class with members of a type that does not resolve, and of arrays of it. -/
def voyage : Declaration :=
  type .class "Voyage" ["Entity"] []
    [field "id" ["Key"], { field "captain" ["ManyToOne"] with type := missing },
      { field "ports" ["OneToMany"] with
        type := ⟨.container, "Array", some .list, some [missing], none, none⟩ }]

end Sample

/-- The captain of a voyage is reported. -/
theorem captain_of_voyage_reported :
    ∃ b, buildEntity Sample.context Sample.voyage .entity = .ok b ∧
      ∃ p ∈ b.entity.properties, p.name = "captain" ∧ p.inheritedFrom = none ∧
        b.unresolvedReports p.name = [unresolvedFinding "shop.Voyage" none p] ∧
        ∀ entities superclasses, Graph.targetOf? entities superclasses p = none := by
  obtain ⟨b, hb, hexpected⟩ := @Sample.exists_built Sample.voyage .entity
    (fun b => b.entity.qualifiedName == "shop.Voyage" && b.entity.properties.any fun p =>
      p.name == "captain" && p.inheritedFrom == none && p.type.isUnresolved && !p.isCollection &&
        p.source == none)
    (by decide +kernel)
  obtain ⟨hname, hany⟩ := Bool.and_eq_true_iff.1 hexpected
  obtain ⟨p, hp, hp'⟩ := List.any_eq_true.1 hany
  simp only [Bool.and_eq_true, beq_iff_eq, Bool.not_eq_true'] at hp'
  obtain ⟨⟨⟨⟨hcaptain, hown⟩, hunresolved⟩, hcollection⟩, hsource⟩ := hp'
  obtain ⟨hreports, -, htarget⟩ := unresolvedReports_of_buildEntity hb hp hown
  have htype : relationshipTarget? p.type p.isCollection = some p.type := by
    rw [hcollection]
    rfl
  refine ⟨b, hb, p, hp, hcaptain, hown, ?_, htarget (by rw [htype]; exact hunresolved)⟩
  rw [hreports, if_pos hunresolved, eq_of_beq hname, hsource]
  rfl

/-- Its ports are not. -/
theorem exists_unresolved_unreported :
    ∃ b, buildEntity Sample.context Sample.voyage .entity = .ok b ∧
      ∃ p ∈ b.entity.properties, p.name = "ports" ∧ p.inheritedFrom = none ∧
        p.type.MentionsUnresolved ∧ b.unresolvedReports p.name = [] := by
  obtain ⟨b, hb, hexpected⟩ := @Sample.exists_built Sample.voyage .entity
    (fun b => (b.unresolvedReports "ports").isEmpty && b.entity.properties.any fun p =>
      p.name == "ports" && p.inheritedFrom == none && p.type.args.any (·.isUnresolved))
    (by decide +kernel)
  obtain ⟨hreports, hany⟩ := Bool.and_eq_true_iff.1 hexpected
  obtain ⟨p, hp, hp'⟩ := List.any_eq_true.1 hany
  simp only [Bool.and_eq_true, beq_iff_eq, List.any_eq_true] at hp'
  obtain ⟨⟨hports, hown⟩, t, ht, hunresolved⟩ := hp'
  refine ⟨b, hb, p, hp, hports, hown, .arg ht (.self hunresolved), ?_⟩
  rw [hports]
  exact List.isEmpty_iff.1 hreports

end Metamodel
