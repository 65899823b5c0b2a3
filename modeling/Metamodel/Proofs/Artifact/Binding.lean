import Metamodel.Proofs.Artifact.FileName
import Metamodel.Proofs.Artifact.Linking

/-!
# Names bound at the top of a file

A generated file binds the names that it imports and the one that it declares. Only the module keeps
imports of equal names apart, so a name can be bound twice. `Entity.ImplementationApart` and
`Graph.MetadataApart` list how that can happen in the two files of a node; it happens in no other way
(`nodup_boundNames_implementation_iff`, `nodup_boundNames_metadata_iff`), and never in a registry
(`nodup_boundNames_registry`). Where no name is bound twice, the metadata class of a related type is
that of the type and of no other (`denotes_related`).
-/

namespace Metamodel

open Path

namespace Artifact

/-- The class or constant that the file declares. -/
def declaredName (a : Artifact) : String :=
  a.className?.getD "MODEL"

def boundNames (a : Artifact) : List String :=
  Import.boundNames a.imports ++ [a.declaredName]

/-- Each name is bound in one way: by one import, or by the declaration. -/
def BindsOnce (a : Artifact) : Prop :=
  ∀ r, Import.Brings a.imports r → r.name ≠ a.declaredName ∧
    ∀ q, Import.Brings a.imports q → r.name = q.name → r = q

/-- The file binds the name once, to the class that the other file declares: it is that file, or
imports the class from there. -/
structure Denotes (o : DeriveOptions) (a : Artifact) (name : String) (b : Artifact) : Prop where
  class_eq : b.className? = some name
  once : (a = b ∧ ∀ r, Import.Brings a.imports r → r.name ≠ name) ∨
    a.declaredName ≠ name ∧ ∃ r, Import.Brings a.imports r ∧ r.name = name ∧ a.Links o b r ∧
      ∀ q, Import.Brings a.imports q → q.name = name → q = r

theorem declaredName_eq {a : Artifact} {c : String} (h : a.className? = some c) :
    a.declaredName = c := by
  unfold declaredName
  rw [h, Option.getD_some]

/-- What a name denotes lies in one place. -/
theorem Denotes.resolve_eq {o : DeriveOptions} {a b b' : Artifact} {name : String}
    (h : a.Denotes o name b) (h' : a.Denotes o name b') :
    resolve [join [o.outDir, b.fileName]] = resolve [join [o.outDir, b'.fileName]] := by
  rcases h.once with ⟨rfl, hnone⟩ | ⟨hother, r, hr, hrn, hlinks, honly⟩
  · rcases h'.once with ⟨rfl, -⟩ | ⟨hother', -⟩
    · rfl
    · exact absurd (declaredName_eq h.class_eq) hother'
  · rcases h'.once with ⟨rfl, -⟩ | ⟨-, r', hr', hrn', hlinks', -⟩
    · exact absurd (declaredName_eq h'.class_eq) hother
    · have hsame : r' = r := honly r' hr' hrn'
      rw [← hlinks.path, ← hlinks'.path, hsame]

end Artifact

namespace Derivation

variable {g : Graph} {o : DeriveOptions} {e t t' : Entity} {r q : ImportRequest}

/-! ## What the files of a node import -/

/-- What an implementation imports of the runtime. -/
def implementationSupport (o : DeriveOptions) (e : Entity) : List ImportRequest :=
  [⟨o.runtimeModule, "describeEntity", false⟩, ⟨o.runtimeModule, "hashValues", false⟩,
    ⟨o.runtimeModule, "valueEquals", false⟩] ++
  if e.tracksState then [⟨o.runtimeModule, "PropertyState", false⟩] else []

/-- What every metadata class imports of the runtime. -/
def typeSupport (o : DeriveOptions) : List ImportRequest :=
  [⟨o.runtimeModule, "AttributeBuilder", false⟩, ⟨o.runtimeModule, "TypeBuilder", false⟩,
    ⟨o.runtimeModule, "Attribute", true⟩, ⟨o.runtimeModule, "Type", true⟩]

/-- What a metadata class imports of the runtime. -/
def metadataSupport (o : DeriveOptions) (e : Entity) : List ImportRequest :=
  typeSupport o ++ if e.persistentProperties.any (·.cardinality.isSome) then
    [⟨o.runtimeModule, "Cardinality", false⟩]
  else []

/-- What a registry imports of the runtime. -/
def registrySupport (o : DeriveOptions) : List ImportRequest :=
  [⟨o.runtimeModule, "createEntityModel", false⟩, ⟨o.runtimeModule, "EntityModel", true⟩]

/-- A stored property of the type leads to another type. -/
def Relates (g : Graph) (e target : Entity) : Prop :=
  ∃ p ∈ e.persistentProperties, ∃ edge, g.edge? e.qualifiedName p.name = some edge ∧
    edge.target = target ∧ target.qualifiedName ≠ e.qualifiedName

theorem brings_implementation_iff :
    Import.Brings (implementation o e).imports r ↔
      r ∈ implementationSupport o e ∨ r = sourceRequest o e e.implementationClass e.isInterface := by
  unfold implementation implementationSupport
  rw [Import.brings_collect_iff, List.mem_append, List.mem_singleton]
  rfl

theorem mem_attributeRequests_iff {file : String} {p : Property} :
    r ∈ attributeRequests g e o file p ↔
      (∃ edge, g.edge? e.qualifiedName p.name = some edge ∧
        edge.target.qualifiedName ≠ e.qualifiedName ∧
        r = ⟨specifier file (generatedModule o edge.target edge.target.metadataClass),
          edge.target.metadataClass, false⟩) ∨
      p.cardinality.isSome = true ∧ r = ⟨o.runtimeModule, "Cardinality", false⟩ := by
  unfold attributeRequests
  rw [List.mem_append]
  refine or_congr ?_ ?_
  · cases hedge : g.edge? e.qualifiedName p.name with
    | none => simp
    | some edge =>
      by_cases hself : edge.target.qualifiedName = e.qualifiedName
      · simp [hself]
      · simp [hself]
  · by_cases hcard : p.cardinality.isSome = true
    · simp [hcard]
    · simp [hcard]

theorem mem_metadataSupport_iff :
    r ∈ metadataSupport o e ↔ r ∈ typeSupport o ∨
      ∃ p ∈ e.persistentProperties, p.cardinality.isSome = true ∧
        r = ⟨o.runtimeModule, "Cardinality", false⟩ := by
  unfold metadataSupport
  rw [List.mem_append]
  refine or_congr Iff.rfl ?_
  by_cases hany : ∃ p ∈ e.persistentProperties, p.cardinality.isSome = true
  · rw [if_pos (List.any_eq_true.2 hany), List.mem_singleton]
    obtain ⟨p, hp, hcard⟩ := hany
    exact ⟨fun h => ⟨p, hp, hcard, h⟩, fun ⟨_, _, _, h⟩ => h⟩
  · rw [if_neg (mt List.any_eq_true.1 hany)]
    exact ⟨nofun, fun ⟨p, hp, hcard, _⟩ => absurd ⟨p, hp, hcard⟩ hany⟩

theorem brings_metadata_iff :
    Import.Brings (metadata g o e).imports r ↔
      r ∈ metadataSupport o e ∨ r = sourceRequest o e e.metadataClass true ∨
        (e.hasImplementation = true ∧ e.implementationClass ≠ "" ∧
          r = classRequest o e e e.implementationClass) ∨
        ∃ target, Relates g e target ∧ r = classRequest o e target target.metadataClass := by
  have hfixed : r ∈ typeSupport o ++ [sourceRequest o e e.metadataClass true] ↔
      r ∈ typeSupport o ∨ r = sourceRequest o e e.metadataClass true := by
    rw [List.mem_append, List.mem_singleton]
  unfold metadata
  rw [Import.brings_collect_iff, mem_metadataSupport_iff]
  simp only [List.mem_append, List.mem_map, List.mem_flatMap, Option.mem_toList,
    Option.filter_eq_some_iff, mem_attributeRequests_iff]
  constructor
  · rintro ((h | ⟨c, ⟨hc, hne⟩, rfl⟩) | ⟨p, hp, ⟨edge, hedge, hself, rfl⟩ | ⟨hcard, h⟩⟩)
    · rcases hfixed.1 h with h | h
      · exact Or.inl (Or.inl h)
      · exact Or.inr (Or.inl h)
    · obtain ⟨himpl, hc⟩ := Option.ite_none_right_eq_some.1 hc
      cases hc
      exact Or.inr (Or.inr (Or.inl ⟨himpl, of_decide_eq_true hne, rfl⟩))
    · exact Or.inr (Or.inr (Or.inr ⟨edge.target, ⟨p, hp, edge, hedge, rfl, hself⟩, rfl⟩))
    · exact Or.inl (Or.inr ⟨p, hp, hcard, h⟩)
  · rintro ((h | ⟨p, hp, hcard, h⟩) | h | ⟨himpl, hne, rfl⟩ | ⟨_, ⟨p, hp, edge, hedge, rfl, hself⟩, rfl⟩)
    · exact Or.inl (Or.inl (hfixed.2 (Or.inl h)))
    · exact Or.inr ⟨p, hp, Or.inr ⟨hcard, h⟩⟩
    · exact Or.inl (Or.inl (hfixed.2 (Or.inr h)))
    · exact Or.inl (Or.inr ⟨e.implementationClass, ⟨if_pos himpl, decide_eq_true hne⟩, rfl⟩)
    · exact Or.inr ⟨p, hp, Or.inl ⟨edge, hedge, hself, rfl⟩⟩

theorem brings_registry_iff {p : String} :
    Import.Brings (packageRegistry g o p).imports r ↔ r ∈ registrySupport o ∨
      ∃ e ∈ g.nodes, e.kind = .entity ∧ e.packageName = p ∧
        r = ⟨"./" ++ e.metadataClass, e.metadataClass, false⟩ := by
  unfold packageRegistry registry
  rw [Import.brings_collect_iff, List.mem_append]
  refine or_congr Iff.rfl ?_
  simp only [List.mem_map, List.mem_filter]
  constructor
  · rintro ⟨_, ⟨_, ⟨⟨⟨e, he, rfl⟩, hkind⟩, hp⟩, rfl⟩, rfl⟩
    exact ⟨e, he, eq_of_beq hkind, eq_of_beq hp, rfl⟩
  · rintro ⟨e, he, hkind, hp, rfl⟩
    exact ⟨_, ⟨_, ⟨⟨⟨e, he, rfl⟩, beq_iff_eq.2 hkind⟩, beq_iff_eq.2 hp⟩, rfl⟩, rfl⟩

/-! ## Requests of one name -/

/-- The classes of two types are imported in one way exactly when they lie in one directory. -/
theorem classRequest_eq_iff {c : String} (hc : Naming.isIdentifier c = true) :
    classRequest o e t c = classRequest o e t' c ↔
      packageParts t.packageName = packageParts t'.packageName := by
  have hsegments (x : Entity) : resolvedSegments [generatedModule o x c] =
      resolvedSegments [o.outDir] ++ packageParts x.packageName ++ [c] :=
    resolvedSegments_module (Naming.isName_of_isIdentifier hc) o.outDir x.packageName
  constructor
  · intro h
    have hmodule := congrArg (fun r => resolve [directory (join [o.outDir,
      outputFile e e.metadataClass]), r.module]) h
    simp only [classRequest, resolve_specifier, resolve_eq_resolve_iff, hsegments] at hmodule
    exact List.append_cancel_left (List.append_cancel_right hmodule)
  · intro h
    have hsteps (file : String) : stepsTo file (generatedModule o t c) =
        stepsTo file (generatedModule o t' c) := by
      unfold stepsTo
      rw [hsegments, hsegments, h]
    unfold classRequest
    rw [specifier_eq, specifier_eq, hsteps]

/-- A declaring type is imported as a type, a generated class as a value. -/
theorem sourceRequest_ne_classRequest {c c' : String} :
    sourceRequest o e c true ≠ classRequest o e t c' := fun h =>
  Bool.noConfusion (congrArg ImportRequest.typeOnly h)

theorem eq_of_mem_implementationSupport (hr : r ∈ implementationSupport o e)
    (hq : q ∈ implementationSupport o e) (hname : r.name = q.name) : r = q := by
  have hnames : ((implementationSupport o e).map ImportRequest.name).Nodup := by
    unfold implementationSupport
    cases e.tracksState <;> simp
  exact List.inj_on_of_nodup_map hnames hr hq hname

theorem eq_of_mem_metadataSupport (hr : r ∈ metadataSupport o e) (hq : q ∈ metadataSupport o e)
    (hname : r.name = q.name) : r = q := by
  have hnames : ((metadataSupport o e).map ImportRequest.name).Nodup := by
    unfold metadataSupport typeSupport
    cases e.persistentProperties.any (·.cardinality.isSome) <;> simp
  exact List.inj_on_of_nodup_map hnames hr hq hname

theorem implementationSupport_runtime (hr : r ∈ implementationSupport o e) :
    r.name ∈ runtimeNames := by
  have hnames : (implementationSupport o e).map ImportRequest.name ⊆ runtimeNames := by
    unfold implementationSupport
    cases e.tracksState <;> simp [runtimeNames]
  exact hnames (List.mem_map_of_mem hr)

theorem metadataSupport_runtime (hr : r ∈ metadataSupport o e) : r.name ∈ runtimeNames := by
  rcases mem_metadataSupport_iff.1 hr with hr | ⟨-, -, -, rfl⟩
  · have hnames : (typeSupport o).map ImportRequest.name ⊆ runtimeNames := by
      show ["AttributeBuilder", "TypeBuilder", "Attribute", "Type"] ⊆ runtimeNames
      decide
    exact hnames (List.mem_map_of_mem hr)
  · show "Cardinality" ∈ runtimeNames
    decide

/-- Metadata classes are not named like anything of the runtime. -/
theorem metadataClass_notMem_runtimeNames (e : Entity) : e.metadataClass ∉ runtimeNames := by
  intro h
  have hlast : ∀ name ∈ runtimeNames, name.toList.getLast? ≠ some '_' := by decide
  exact Graph.metadataClass_ne (hlast _ h) e rfl

end Derivation

open Derivation

theorem Artifact.nodup_boundNames_iff {g : Graph} {o : DeriveOptions} {a : Artifact}
    (ha : a ∈ g.artifacts o) : a.boundNames.Nodup ↔ a.BindsOnce := by
  have hcollect : ∃ requests, a.imports = Import.collect o.runtimeModule requests := by
    rcases mem_artifacts_cases ha with ⟨e, -, -, rfl⟩ | ⟨e, -, rfl⟩ | ⟨-, e, -, -, rfl⟩
    · exact ⟨_, rfl⟩
    · exact ⟨_, rfl⟩
    · exact ⟨_, rfl⟩
  obtain ⟨requests, himports⟩ := hcollect
  unfold boundNames BindsOnce
  simp only [List.nodup_append, List.nodup_singleton, List.mem_singleton, Import.mem_boundNames_iff,
    himports, Import.nodup_boundNames_collect_iff, Import.brings_collect_iff, true_and]
  constructor
  · rintro ⟨hrequests, hdeclared⟩ r hr
    exact ⟨hdeclared _ ⟨r, hr, rfl⟩ _ rfl, fun q hq => hrequests r hr q hq⟩
  · intro h
    refine ⟨fun r hr => (h r hr).2, ?_⟩
    rintro _ ⟨r, hr, rfl⟩ _ rfl
    exact (h r hr).1

/-- The names in the implementation of a type do not clash. -/
structure Entity.ImplementationApart (o : DeriveOptions) (e : Entity) : Prop where
  /-- the type can be named like something of the runtime -/
  source : ∀ r ∈ implementationSupport o e, r.name = e.simpleName →
    r = sourceRequest o e e.implementationClass e.isInterface
  /-- the name that is given to the implementation can be one of the runtime -/
  runtime : ∀ r ∈ implementationSupport o e, r.name ≠ e.implementationClass
  /-- the name that is given to the implementation can be that of the type -/
  base : e.simpleName ≠ e.implementationClass

/-- The names in the metadata of a type do not clash. -/
structure Graph.MetadataApart (g : Graph) (o : DeriveOptions) (e : Entity) : Prop where
  source : ∀ r ∈ metadataSupport o e, r.name = e.simpleName →
    r = sourceRequest o e e.metadataClass true
  runtime : e.hasImplementation = true → ∀ r ∈ metadataSupport o e, r.name = e.implementationClass →
    r = classRequest o e e e.implementationClass
  base : e.hasImplementation = true → e.simpleName ≠ e.implementationClass
  own : e.hasImplementation = true → e.implementationClass ≠ e.metadataClass
  /-- the name that is given to the implementation can be that of a related type's metadata -/
  implementation : e.hasImplementation = true → ∀ t, Relates g e t →
    e.implementationClass = t.metadataClass → packageParts e.packageName = packageParts t.packageName
  /-- a type can be named like the metadata of a related type -/
  related : ∀ t, Relates g e t → e.simpleName ≠ t.metadataClass
  /-- a related type can be a namesake in another package -/
  namesake : ∀ t, Relates g e t → t.simpleName ≠ e.simpleName
  /-- related types can be namesakes in two packages -/
  targets : ∀ t t', Relates g e t → Relates g e t' → t.simpleName = t'.simpleName →
    packageParts t.packageName = packageParts t'.packageName

namespace Graph

variable {g : Graph} {o : DeriveOptions} {e : Entity}

theorem nodup_boundNames_implementation_iff (he : e ∈ g.nodes) (himpl : e.hasImplementation = true) :
    (Artifact.implementation (implementation o e)).boundNames.Nodup ↔ e.ImplementationApart o := by
  rw [Artifact.nodup_boundNames_iff (implementation_mem_artifacts_iff.2 ⟨e, he, himpl, rfl⟩)]
  constructor
  · intro h
    have hsource := h _ (brings_implementation_iff.2 (Or.inr rfl))
    refine ⟨fun r hr hname => ?_, fun r hr => ?_, hsource.1⟩
    · exact ((hsource.2 r (brings_implementation_iff.2 (Or.inl hr))) hname.symm).symm
    · exact (h r (brings_implementation_iff.2 (Or.inl hr))).1
  · intro h r hr
    rcases brings_implementation_iff.1 hr with hr | rfl
    · refine ⟨h.runtime r hr, fun q hq hname => ?_⟩
      rcases brings_implementation_iff.1 hq with hq | rfl
      · exact eq_of_mem_implementationSupport hr hq hname
      · exact h.source r hr hname
    · refine ⟨h.base, fun q hq hname => ?_⟩
      rcases brings_implementation_iff.1 hq with hq | rfl
      · exact (h.source q hq hname.symm).symm
      · rfl

theorem IsClosed.mem_nodes_of_relates (hclosed : g.IsClosed) {t : Entity} (h : Relates g e t) :
    t ∈ g.nodes := by
  obtain ⟨p, -, edge, hedge, rfl, -⟩ := h
  exact hclosed edge (List.mem_of_find?_eq_some hedge)

theorem brings_of_relates {t : Entity} (h : Relates g e t) :
    Import.Brings (metadata g o e).imports (classRequest o e t t.metadataClass) :=
  brings_metadata_iff.2 (Or.inr (Or.inr (Or.inr ⟨t, h, rfl⟩)))

/-- The class that the attribute names for a related type is the metadata of the target of its own
relationship, and the name denotes what lies there and nothing else. -/
def ReferencesTarget (g : Graph) (o : DeriveOptions) (m : MetadataArtifact) (x : AttributeModel) :
    Prop :=
  ∀ expression, x.referencedType = some expression →
    ∃ edge ∈ g.edges, edge.key = (m.entity, x.name) ∧
      expression = edge.target.metadataClass ++ ".TYPE" ∧
      .metadata (metadata g o edge.target) ∈ g.artifacts o ∧
      (Artifact.metadata m).Denotes o edge.target.metadataClass
        (.metadata (metadata g o edge.target)) ∧
      ∀ b, (Artifact.metadata m).Denotes o edge.target.metadataClass b →
        resolve [join [o.outDir, b.fileName]] =
          resolve [join [o.outDir, (Artifact.metadata (metadata g o edge.target)).fileName]]

section Metadata

variable (hnames : ∀ e ∈ g.nodes, e.HasClassNames) (hclosed : g.IsClosed) (he : e ∈ g.nodes)
include hnames hclosed he

theorem metadataApart_of_bindsOnce (h : (Artifact.metadata (metadata g o e)).BindsOnce) :
    g.MetadataApart o e := by
  have hone {r q : ImportRequest} (hr : Import.Brings (metadata g o e).imports r)
      (hq : Import.Brings (metadata g o e).imports q) (hname : r.name = q.name) : r = q :=
    (h r hr).2 q hq hname
  have hsupport {r : ImportRequest} (hr : r ∈ metadataSupport o e) :
      Import.Brings (metadata g o e).imports r := brings_metadata_iff.2 (Or.inl hr)
  have hsource : Import.Brings (metadata g o e).imports (sourceRequest o e e.metadataClass true) :=
    brings_metadata_iff.2 (Or.inr (Or.inl rfl))
  have himplementation (hi : e.hasImplementation = true) : Import.Brings (metadata g o e).imports
      (classRequest o e e e.implementationClass) :=
    brings_implementationClass hi
      (Naming.isName_of_isIdentifier ((hnames e he).implementation hi)).ne_empty
  refine ⟨?_, ?_, ?_, ?_, ?_, ?_, ?_, ?_⟩
  · intro r hr hname
    exact hone (hsupport hr) hsource hname
  · intro hi r hr hname
    exact hone (hsupport hr) (himplementation hi) hname
  · intro hi hname
    exact sourceRequest_ne_classRequest (hone hsource (himplementation hi) hname)
  · intro hi
    exact (h _ (himplementation hi)).1
  · intro hi t ht hname
    have hsame := hone (himplementation hi) (brings_of_relates ht) hname
    rw [← hname] at hsame
    exact (classRequest_eq_iff ((hnames e he).implementation hi)).1 hsame
  · intro t ht hname
    exact sourceRequest_ne_classRequest (hone hsource (brings_of_relates ht) hname)
  · intro t ht hname
    exact (h _ (brings_of_relates ht)).1 (metadataClass_inj.2 hname)
  · intro t t' ht ht' hname
    have hclass := metadataClass_inj.2 hname
    have hsame := hone (brings_of_relates ht) (brings_of_relates ht') hclass
    rw [← hclass] at hsame
    exact (classRequest_eq_iff (hnames t (hclosed.mem_nodes_of_relates ht)).metadata).1 hsame

theorem MetadataApart.bindsOnce (h : g.MetadataApart o e) :
    (Artifact.metadata (metadata g o e)).BindsOnce := by
  have hsupport {r : ImportRequest} (hr : r ∈ metadataSupport o e) (t : Entity) :
      r.name ≠ t.metadataClass := by
    intro hname
    exact metadataClass_notMem_runtimeNames t (hname ▸ metadataSupport_runtime hr)
  have htargets {t t' : Entity} (ht : Relates g e t) (ht' : Relates g e t')
      (hclass : t.metadataClass = t'.metadataClass) :
      classRequest o e t t.metadataClass = classRequest o e t' t'.metadataClass := by
    rw [← hclass]
    have hid := (hnames t (hclosed.mem_nodes_of_relates ht)).metadata
    exact (classRequest_eq_iff hid).2 (h.targets t t' ht ht' (metadataClass_inj.1 hclass))
  have himplementation {t : Entity} (hi : e.hasImplementation = true) (ht : Relates g e t)
      (hclass : e.implementationClass = t.metadataClass) :
      classRequest o e e e.implementationClass = classRequest o e t t.metadataClass := by
    rw [← hclass]
    exact (classRequest_eq_iff ((hnames e he).implementation hi)).2 (h.implementation hi t ht hclass)
  intro r hr
  constructor
  · intro hdeclared
    rcases brings_metadata_iff.1 hr with hr | rfl | ⟨hi, -, rfl⟩ | ⟨t, ht, rfl⟩
    · exact hsupport hr e hdeclared
    · have hlength := congrArg (fun s : String => s.toList.length) hdeclared
      simp only [sourceRequest, Artifact.declaredName, Artifact.className?, metadata,
        Option.getD_some, toList_metadataClass, List.length_append, List.length_singleton] at hlength
      omega
    · exact h.own hi hdeclared
    · exact h.namesake t ht (metadataClass_inj.1 hdeclared)
  · intro q hq hname
    rcases brings_metadata_iff.1 hr with hr | rfl | ⟨hi, -, rfl⟩ | ⟨t, ht, rfl⟩ <;>
      rcases brings_metadata_iff.1 hq with hq | rfl | ⟨hi', -, rfl⟩ | ⟨t', ht', rfl⟩
    · exact eq_of_mem_metadataSupport hr hq hname
    · exact h.source r hr hname
    · exact h.runtime hi' r hr hname
    · exact absurd hname (hsupport hr t')
    · exact (h.source q hq hname.symm).symm
    · rfl
    · exact absurd hname (h.base hi')
    · exact absurd hname (h.related t' ht')
    · exact (h.runtime hi q hq hname.symm).symm
    · exact absurd hname.symm (h.base hi)
    · rfl
    · exact himplementation hi ht' hname
    · exact absurd hname.symm (hsupport hq t)
    · exact absurd hname.symm (h.related t ht)
    · exact (himplementation hi' ht hname.symm).symm
    · exact htargets ht ht' hname

theorem nodup_boundNames_metadata_iff :
    (Artifact.metadata (metadata g o e)).boundNames.Nodup ↔ g.MetadataApart o e := by
  rw [Artifact.nodup_boundNames_iff (metadata_mem_artifacts_iff.2 ⟨e, he, rfl⟩)]
  constructor
  · exact metadataApart_of_bindsOnce hnames hclosed he
  · exact MetadataApart.bindsOnce hnames hclosed he

/-- Where no name is bound twice, the metadata class of a related type is that of the type. -/
theorem denotes_related (hg : g.IsKeyed)
    (h : (Artifact.metadata (metadata g o e)).boundNames.Nodup) {p : Property}
    (hp : p ∈ e.persistentProperties) {edge : Edge}
    (hedge : g.edge? e.qualifiedName p.name = some edge) :
    (Artifact.metadata (metadata g o e)).Denotes o edge.target.metadataClass
      (.metadata (metadata g o edge.target)) := by
  have honce := (Artifact.nodup_boundNames_iff (metadata_mem_artifacts_iff.2 ⟨e, he, rfl⟩)).1 h
  have htarget := hclosed edge (List.mem_of_find?_eq_some hedge)
  refine ⟨rfl, ?_⟩
  by_cases hself : edge.target.qualifiedName = e.qualifiedName
  · rw [hg.node_eq htarget he hself]
    exact Or.inl ⟨rfl, fun r hr => (honce r hr).1⟩
  · have hbrings := brings_related (o := o) hp hedge hself
    obtain ⟨hdeclared, honly⟩ := honce _ hbrings
    refine Or.inr ⟨hdeclared.symm, _, hbrings, rfl, ?_, fun q hq hname => (honly q hq hname.symm).symm⟩
    exact Artifact.links_specifier (Naming.noSlash_of_isIdentifier (hnames e he).metadata)
      (hnames edge.target htarget).metadata rfl rfl rfl false

/-- Where no name is bound twice, every attribute references the target of its relationship. -/
theorem referencesTarget (hg : g.IsKeyed)
    (h : (Artifact.metadata (metadata g o e)).boundNames.Nodup) {x : AttributeModel}
    (hx : x ∈ (metadata g o e).attributes) : ReferencesTarget g o (metadata g o e) x := by
  intro expression hreferenced
  obtain ⟨p, hp, rfl⟩ := List.mem_map.1 hx
  obtain ⟨edge, hedge, hclass⟩ := Option.map_eq_some_iff.1 hreferenced
  have hmem : edge ∈ g.edges := List.mem_of_find?_eq_some hedge
  have hkey : edge.key = (e.qualifiedName, p.name) := by
    rw [edge?_eq_find?] at hedge
    exact eq_of_beq (List.find?_some (p := fun x : Edge => x.key == (e.qualifiedName, p.name)) hedge)
  have hdenotes := denotes_related hnames hclosed he hg h hp hedge
  have htarget : .metadata (metadata g o edge.target) ∈ g.artifacts o :=
    metadata_mem_artifacts_iff.2 ⟨edge.target, hclosed edge hmem, rfl⟩
  refine ⟨edge, hmem, hkey, hclass.symm, htarget, hdenotes, ?_⟩
  intro b hb
  exact hb.resolve_eq hdenotes

end Metadata

/-- A registry binds the metadata classes of its package and three names that none of them has. -/
theorem nodup_boundNames_registry {p : String}
    (h : .registry (packageRegistry g o p) ∈ g.artifacts o) :
    (Artifact.registry (packageRegistry g o p)).boundNames.Nodup := by
  have hsupport : ∀ r ∈ registrySupport o, r.name ∈ ["createEntityModel", "EntityModel"] := by
    intro r hr
    exact List.mem_map_of_mem (f := ImportRequest.name) hr
  have hclass {r : ImportRequest} (hr : r ∈ registrySupport o) (t : Entity) :
      r.name ≠ t.metadataClass := by
    have hlast : ∀ name ∈ ["createEntityModel", "EntityModel"], name.toList.getLast? ≠ some '_' := by
      decide
    exact (metadataClass_ne (hlast _ (hsupport r hr)) t).symm
  rw [Artifact.nodup_boundNames_iff h]
  intro r hr
  rcases brings_registry_iff.1 hr with hr | ⟨e, -, -, -, rfl⟩
  · constructor
    · intro hdeclared
      have hmodel : r.name = "MODEL" := hdeclared
      have hname := hsupport r hr
      rw [hmodel] at hname
      exact absurd hname (by decide)
    · intro q hq hname
      rcases brings_registry_iff.1 hq with hq | ⟨t, -, -, -, rfl⟩
      · have hnames : ((registrySupport o).map ImportRequest.name).Nodup := by
          simp [registrySupport]
        exact List.inj_on_of_nodup_map hnames hr hq hname
      · exact absurd hname (hclass hr t)
  · have hmodel : e.metadataClass ≠ "MODEL" := metadataClass_ne (by decide) e
    refine ⟨hmodel, fun q hq hname => ?_⟩
    rcases brings_registry_iff.1 hq with hq | ⟨t, -, -, -, rfl⟩
    · exact absurd hname.symm (hclass hq e)
    · have hsame : e.metadataClass = t.metadataClass := hname
      rw [hsame]

theorem IsKeyed.forall_named_iff (hg : g.IsKeyed) (he : e ∈ g.nodes) {P : Entity → Prop} :
    (∀ e' ∈ g.nodes, e'.qualifiedName = e.qualifiedName → P e') ↔ P e := by
  constructor
  · intro h
    exact h e he rfl
  · intro h e' he' hname
    rw [hg.node_eq he' he hname]
    exact h

/-- The names in the file do not clash. -/
def NamesApart (g : Graph) (o : DeriveOptions) : Artifact → Prop
  | .implementation i => ∀ e ∈ g.nodes, e.qualifiedName = i.entity → e.ImplementationApart o
  | .metadata m => ∀ e ∈ g.nodes, e.qualifiedName = m.entity → g.MetadataApart o e
  | .registry _ => True

/-- A file of a graph binds a name twice exactly when its names clash. -/
theorem nodup_boundNames_iff (hg : g.IsKeyed) (hclosed : g.IsClosed)
    (hnames : ∀ e ∈ g.nodes, e.HasClassNames) {a : Artifact} (ha : a ∈ g.artifacts o) :
    a.boundNames.Nodup ↔ g.NamesApart o a := by
  rcases mem_artifacts_cases ha with ⟨e, he, himpl, rfl⟩ | ⟨e, he, rfl⟩ | ⟨-, e, -, -, rfl⟩
  · rw [nodup_boundNames_implementation_iff he himpl]
    exact (hg.forall_named_iff he).symm
  · rw [nodup_boundNames_metadata_iff hnames hclosed he]
    exact (hg.forall_named_iff he).symm
  · exact iff_of_true (nodup_boundNames_registry ha) trivial

/-- Names do not clash where implementations have no given names, and simple names are distinct,
not those of the runtime, and do not end like a metadata class. -/
theorem namesApart_of_defaults (hclosed : g.IsClosed) (h : ∀ e ∈ g.nodes, e.HasDefaultNames)
    (hruntime : ∀ e ∈ g.nodes, e.simpleName ∉ runtimeNames)
    (hdistinct : ∀ e ∈ g.nodes, ∀ e' ∈ g.nodes, e.simpleName = e'.simpleName → e = e')
    (a : Artifact) : g.NamesApart o a := by
  have hgenerated {e : Entity} (he : e ∈ g.nodes) : e.implementationClass ∉ runtimeNames := by
    intro hmem
    have hfirst : ∀ name ∈ runtimeNames, name.toList.head? ≠ some 'G' := by decide
    apply hfirst _ hmem
    rw [(h e he).implementationClass_eq, String.toList_append]
    rfl
  have hbase {e : Entity} (he : e ∈ g.nodes) : e.simpleName ≠ e.implementationClass := by
    intro hname
    have hlength := congrArg String.length (hname.trans (h e he).implementationClass_eq)
    have hprefix : "Generated".length = 9 := by decide
    rw [String.length_append] at hlength
    omega
  have htarget {e t t' : Entity} (ht : Relates g e t) (ht' : t' ∈ g.nodes)
      (hname : t.simpleName = t'.simpleName) : t = t' :=
    hdistinct t (hclosed.mem_nodes_of_relates ht) t' ht' hname
  cases a with
  | implementation i =>
    intro e he _
    refine ⟨fun r hr hname => ?_, fun r hr hname => ?_, hbase he⟩
    · exact absurd (hname ▸ implementationSupport_runtime hr) (hruntime e he)
    · exact absurd (hname ▸ implementationSupport_runtime hr) (hgenerated he)
  | metadata m =>
    intro e he _
    refine ⟨?_, ?_, fun _ => hbase he, ?_, ?_, ?_, ?_, ?_⟩
    · intro r hr hname
      exact absurd (hname ▸ metadataSupport_runtime hr) (hruntime e he)
    · intro _ r hr hname
      exact absurd (hname ▸ metadataSupport_runtime hr) (hgenerated he)
    · intro _
      exact (h e he).implementationClass_ne_metadataClass e
    · intro _ t _ hname
      exact absurd hname ((h e he).implementationClass_ne_metadataClass t)
    · intro t _
      exact (h e he).simpleName_ne_metadataClass t
    · intro t ht hname
      have hsame := htarget ht he hname
      obtain ⟨-, -, -, -, -, hne⟩ := ht
      exact hne (congrArg Entity.qualifiedName hsame)
    · intro t t' ht ht' hname
      rw [htarget ht (hclosed.mem_nodes_of_relates ht') hname]
  | registry _ => trivial

end Graph

end Metamodel
