import Metamodel.Proofs.Artifact.Binding
import Metamodel.Proofs.Artifact.Piece

/-!
# The supply of names

Each name that a generated file uses is that of its own class or imported, and what is used as a
value is not imported as a type only (`supplies_implementation`, `supplies_metadata`,
`supplies_registry`).
One name can be missing: an attribute for a relationship to a type of the own qualified name refers
to the metadata of that type as if it were the file's own, so the simple names must agree as well
(`Graph.IsNamesake`). They do where qualified names tell the types apart (`Supplies.of_isKeyed`).
-/

namespace Metamodel

/-! ## Names of pieces -/

namespace Piece

variable {T V : String → Prop}

/-- A name of a type satisfies the one condition, a name of a value the other. -/
def Within (T V : String → Prop) : Piece → Prop
  | text _ => True
  | type name => T name
  | value name => V name

theorem Within.imp {V' : String → Prop} (hV : ∀ name, V name → V' name) {q : Piece}
    (h : q.Within T V) : q.Within T V' := by
  cases q with
  | text s => trivial
  | type name => exact h
  | value name => exact hV name h

/-- All names in the lines satisfy the conditions. -/
def AllWithin (T V : String → Prop) (body : List (List Piece)) : Prop :=
  ∀ ps ∈ body, ∀ q ∈ ps, q.Within T V

@[simp] theorem within_text (s : String) : (text s).Within T V := trivial

@[simp] theorem within_type_iff {name : String} : (type name).Within T V ↔ T name := Iff.rfl

@[simp] theorem within_value_iff {name : String} : (value name).Within T V ↔ V name := Iff.rfl

@[simp] theorem allWithin_nil : AllWithin T V [] := nofun

@[simp] theorem allWithin_cons_iff {ps : List Piece} {body : List (List Piece)} :
    AllWithin T V (ps :: body) ↔ (∀ q ∈ ps, q.Within T V) ∧ AllWithin T V body :=
  List.forall_mem_cons

@[simp] theorem allWithin_append_iff {body body' : List (List Piece)} :
    AllWithin T V (body ++ body') ↔ AllWithin T V body ∧ AllWithin T V body' :=
  List.forall_mem_append

@[simp] theorem allWithin_texts (lines : List String) : AllWithin T V (texts lines) := by
  intro ps hps q hq
  obtain ⟨l, -, rfl⟩ := List.mem_map.1 hps
  rw [List.mem_singleton.1 hq]
  exact within_text l

theorem allWithin_map_iff {α : Type} {f : α → List Piece} {xs : List α} :
    AllWithin T V (xs.map f) ↔ ∀ x ∈ xs, ∀ q ∈ f x, q.Within T V :=
  List.forall_mem_map

theorem allWithin_flatMap {α : Type} {f : α → List (List Piece)} {xs : List α}
    (h : ∀ x ∈ xs, AllWithin T V (f x)) : AllWithin T V (xs.flatMap f) := by
  intro ps hps
  obtain ⟨x, hx, hps⟩ := List.mem_flatMap.1 hps
  exact h x hx ps hps

theorem within_of_mem_intercalate {sep : String} {groups : List (List Piece)}
    (h : AllWithin T V groups) : ∀ q ∈ [text sep].intercalate groups, q.Within T V := by
  induction groups with
  | nil => exact nofun
  | cons ps groups ih =>
    obtain ⟨hps, hgroups⟩ := allWithin_cons_iff.1 h
    cases groups with
    | nil => simpa using hps
    | cons qs groups =>
      rw [List.intercalate_cons_cons]
      simp only [List.forall_mem_append, List.forall_mem_singleton]
      exact ⟨⟨hps, within_text sep⟩, ih hgroups⟩

end Piece

namespace Derivation

open Piece Rendering

variable {g : Graph} {o : DeriveOptions} {e : Entity} {T V : String → Prop}

theorem within_valueTypePieces (h : T e.simpleName) (p : Property) :
    ∀ q ∈ valueTypePieces e.simpleName p, q.Within T V := by
  unfold valueTypePieces
  cases p.memberKind <;> simp [h]

/-! ## Metadata -/

/-- The conditions hold for the names that the metadata of a type uses. -/
structure MetadataWithin (g : Graph) (e : Entity) (T V : String → Prop) : Prop where
  entity : T e.simpleName
  attributes : T "Attribute"
  types : T "Type"
  attributeBuilder : V "AttributeBuilder"
  typeBuilder : V "TypeBuilder"
  cardinality : ∀ p ∈ e.persistentProperties, p.cardinality.isSome = true → V "Cardinality"
  implementation : ∀ c, factoryClass? e = some c → V c
  reference : ∀ p ∈ e.persistentProperties, ∀ edge, g.edge? e.qualifiedName p.name = some edge →
    V edge.target.metadataClass
  own : V e.metadataClass

namespace MetadataWithin

variable (h : MetadataWithin g e T V)
include h

theorem attributeArguments (p : Property) :
    ∀ q ∈ Derivation.attributeArguments e p, q.Within T V := by
  have hvalue := within_valueTypePieces (V := V) h.entity p
  simp only [Derivation.attributeArguments, List.forall_mem_append]
  exact ⟨⟨by simp [h.entity], hvalue⟩, by simp⟩

theorem attributePieces {p : Property} (hp : p ∈ e.persistentProperties) :
    AllWithin T V (Derivation.attributePieces g e p) := by
  have hdeclaration : ∀ q ∈ attributeDeclaration e p, q.Within T V := by
    simp only [attributeDeclaration, List.forall_mem_append]
    refine ⟨⟨⟨⟨?_, h.attributeArguments p⟩, ?_⟩, h.attributeArguments p⟩, ?_⟩
    · simp [h.attributes]
    · simp [h.attributeBuilder]
    · simp
  have hcardinality : AllWithin T V (p.cardinality.toList.map cardinalityPieces) := by
    refine allWithin_map_iff.2 fun c hc => ?_
    have hsome := h.cardinality p hp (Option.isSome_of_mem (Option.mem_toList.1 hc))
    simp [cardinalityPieces, hsome]
  have hreference : AllWithin T V ((g.edge? e.qualifiedName p.name).toList.map referencePieces) := by
    refine allWithin_map_iff.2 fun edge hedge => ?_
    have hvalue := h.reference p hp edge (Option.mem_toList.1 hedge)
    simp [referencePieces, hvalue]
  simp only [Derivation.attributePieces, allWithin_append_iff]
  refine ⟨⟨⟨⟨⟨by simpa using hdeclaration, allWithin_texts _⟩, hcardinality⟩, hreference⟩, ?_⟩,
    allWithin_texts _⟩
  split
  · rename_i c _ hc
    have hvalue := h.implementation c hc
    simp [stateAccessPieces, hvalue]
  · exact allWithin_nil

theorem body : AllWithin T V (metadataBody g e) := by
  have hargument : ∀ q ∈ typeArgument e, q.Within T V := by
    simp [typeArgument, h.entity]
  have hattributes : AllWithin T V (e.persistentProperties.flatMap fun p =>
      Derivation.attributePieces g e p ++ texts [""]) :=
    allWithin_flatMap fun p hp => allWithin_append_iff.2 ⟨h.attributePieces hp, allWithin_texts _⟩
  have htype : ∀ q ∈ typeDeclaration e, q.Within T V := by
    simp only [typeDeclaration, List.forall_mem_append]
    exact ⟨⟨⟨⟨by simp [h.types], hargument⟩, by simp [h.typeBuilder]⟩, hargument⟩, by simp⟩
  have hfactory : AllWithin T V ((factoryClass? e).toList.map fun c =>
      [text "    .setFactory(() => new ", value c, text "())"]) := by
    refine allWithin_map_iff.2 fun c hc => ?_
    have hvalue := h.implementation c (Option.mem_toList.1 hc)
    simp [hvalue]
  have hadded : AllWithin T V (e.persistentProperties.map fun p => [text "    .addAttribute(",
      value e.metadataClass, text ("." ++ Naming.upperUnderscore p.name ++ ")")]) := by
    refine allWithin_map_iff.2 fun p _ => ?_
    simp [h.own]
  have hinstance : ∀ q ∈ [text "  readonly type: ", type "Type"] ++ typeArgument e ++
      [text " = ", value e.metadataClass, text ".TYPE;"], q.Within T V := by
    simp only [List.forall_mem_append]
    exact ⟨⟨by simp [h.types], hargument⟩, by simp [h.own]⟩
  simp only [metadataBody, allWithin_append_iff, allWithin_texts, allWithin_cons_iff, allWithin_nil,
    and_true, true_and]
  exact ⟨⟨⟨⟨⟨hattributes, htype⟩, hfactory⟩, hadded⟩, by simp [h.own]⟩, hinstance⟩

end MetadataWithin

/-! ## Implementations -/

/-- The conditions hold for the names that the implementation of a type uses. -/
structure ImplementationWithin (e : Entity) (T V : String → Prop) : Prop where
  base : T e.simpleName
  extended : e.isInterface = false → V e.simpleName
  describeEntity : V "describeEntity"
  hashValues : V "hashValues"
  valueEquals : V "valueEquals"
  state : e.tracksState = true → T "PropertyState" ∧ V "PropertyState"
  own : V e.implementationClass

theorem tracksState_of_given? {p : Property} {s : String}
    (h : given? (accessor e p).stateField = some s) : e.tracksState = true := by
  have hfield : (accessor e p).stateField = some s := (Option.filter_eq_some_iff.1 h).1
  have hconditions : (e.tracksState && !p.isTransient) = true :=
    (Option.ite_none_right_eq_some.1 hfield).1
  exact (Bool.and_eq_true_iff.1 hconditions).1

namespace ImplementationWithin

variable (h : ImplementationWithin e T V)
include h

theorem readPieces (p : Property) (front : String) :
    AllWithin T V (Derivation.readPieces e p front) := by
  have hvalue := within_valueTypePieces (V := V) h.base p
  simp only [Derivation.readPieces, allWithin_append_iff, allWithin_texts, allWithin_cons_iff,
    allWithin_nil, List.forall_mem_append, and_true]
  exact ⟨⟨by simp, hvalue⟩, by simp⟩

theorem storePieces (p : Property) : AllWithin T V (Derivation.storePieces e p) := by
  refine allWithin_append_iff.2 ⟨allWithin_texts _, allWithin_map_iff.2 fun s hs => ?_⟩
  have hstate := h.state (tracksState_of_given? (Option.mem_toList.1 hs))
  simp [hstate]

theorem writePieces (p : Property) (front back : String) :
    AllWithin T V (Derivation.writePieces e p front back) := by
  have hvalue := within_valueTypePieces (V := V) h.base p
  simp only [Derivation.writePieces, allWithin_append_iff, allWithin_texts, allWithin_cons_iff,
    allWithin_nil, List.forall_mem_append, and_true]
  exact ⟨⟨⟨by simp, hvalue⟩, by simp⟩, h.storePieces p⟩

theorem accessorPieces (p : Property) : AllWithin T V (Derivation.accessorPieces e p) := by
  simp only [Derivation.accessorPieces, allWithin_append_iff]
  refine ⟨⟨?_, ?_⟩, ?_⟩
  · split
    · refine allWithin_append_iff.2 ⟨h.readPieces p _, ?_⟩
      split
      · exact h.writePieces p _ _
      · exact allWithin_nil
    · exact allWithin_nil
  · split
    · exact h.readPieces p _
    · exact allWithin_nil
  · split
    · exact h.writePieces p _ _
    · exact allWithin_nil

theorem equalityPieces (expressions : List String) :
    ∀ q ∈ Derivation.equalityPieces expressions, q.Within T V := by
  have hcompared : AllWithin T V (expressions.map comparisonPieces) := by
    refine allWithin_map_iff.2 fun x _ => ?_
    simp [comparisonPieces, h.valueEquals]
  unfold Derivation.equalityPieces
  split
  · simp
  · simp only [List.forall_mem_append]
    exact ⟨⟨by simp, within_of_mem_intercalate hcompared⟩, by simp⟩

theorem body : AllWithin T V (implementationBody o e) := by
  have hbase : (basePiece e).Within T V := by
    unfold basePiece
    split
    · exact h.base
    · rename_i hclass
      exact h.extended (Bool.eq_false_iff.2 hclass)
  have hstates : AllWithin T V (e.properties.filterMap fun p =>
      (given? (accessor e p).stateField).map fun s =>
        [text ("  " ++ s ++ ": "), type "PropertyState", text " = ", value "PropertyState",
          text ".FETCH;"]) := by
    intro ps hps
    obtain ⟨p, -, hp⟩ := List.mem_filterMap.1 hps
    obtain ⟨s, hs, rfl⟩ := Option.map_eq_some_iff.1 hp
    have hstate := h.state (tracksState_of_given? hs)
    simp [hstate]
  have hfields : AllWithin T V (e.properties.filterMap fun p =>
      (given? (accessor e p).backingField).map fun f =>
        [text ("  private " ++ f ++ "!: ")] ++ valueTypePieces e.simpleName p ++ [text ";"]) := by
    intro ps hps
    obtain ⟨p, -, hp⟩ := List.mem_filterMap.1 hps
    obtain ⟨f, -, rfl⟩ := Option.map_eq_some_iff.1 hp
    have hvalue := within_valueTypePieces (V := V) h.base p
    simp only [List.forall_mem_append]
    exact ⟨⟨by simp, hvalue⟩, by simp⟩
  have hstandard : AllWithin T V (standardPieces (implementation o e)) := by
    have hequality := h.equalityPieces (implementation o e).equalityExpressions
    have hown : V (implementation o e).className := h.own
    simp only [standardPieces, allWithin_append_iff, allWithin_texts, allWithin_cons_iff,
      allWithin_nil, and_true, true_and]
    exact ⟨⟨⟨by simp [hown], hequality⟩, by simp [h.hashValues]⟩, by simp [h.describeEntity]⟩
  have haccessors : AllWithin T V (e.properties.flatMap (Derivation.accessorPieces e)) :=
    allWithin_flatMap fun p _ => h.accessorPieces p
  simp only [implementationBody, allWithin_append_iff, allWithin_texts, and_true]
  exact ⟨⟨⟨⟨by simp [hbase], hstates⟩, hfields⟩, haccessors⟩, hstandard⟩

end ImplementationWithin

/-! ## Registries -/

theorem allWithin_registryBody {m : RegistryArtifact} (hmodel : T "EntityModel")
    (hcreate : V "createEntityModel") (htypes : ∀ c ∈ m.types, V c) :
    AllWithin T V (registryBody m) := by
  have hlisted : AllWithin T V (m.types.map fun c => [value c, text ".TYPE"]) := by
    refine allWithin_map_iff.2 fun c hc => ?_
    simp [htypes c hc]
  simp only [registryBody, allWithin_cons_iff, allWithin_nil, and_true, List.forall_mem_append]
  exact ⟨⟨by simp [hmodel, hcreate], within_of_mem_intercalate hlisted⟩, by simp⟩

end Derivation

/-! ## What the files supply -/

namespace Artifact

/-- The name can be used as a type: the class of the file has it, or it is imported. -/
def BindsType (a : Artifact) (name : String) : Prop :=
  a.className? = some name ∨ ∃ r, Import.Brings a.imports r ∧ r.name = name

/-- The name can be used as a value: the class of the file has it, or it is imported, and not as a
type only. -/
def BindsValue (a : Artifact) (name : String) : Prop :=
  a.className? = some name ∨ ∃ r, Import.Brings a.imports r ∧ r.name = name ∧ r.typeOnly = false

variable {a : Artifact} {module name : String} {typeOnly : Bool}

theorem bindsType (h : Import.Brings a.imports ⟨module, name, typeOnly⟩) : a.BindsType name :=
  Or.inr ⟨_, h, rfl⟩

theorem bindsValue (h : Import.Brings a.imports ⟨module, name, false⟩) : a.BindsValue name :=
  Or.inr ⟨_, h, rfl, rfl⟩

end Artifact

namespace Graph

open Derivation Piece

variable {g : Graph} {o : DeriveOptions} {e : Entity}

/-- The lines of the body of a file. -/
inductive HasBody (g : Graph) (o : DeriveOptions) : Artifact → List (List Piece) → Prop where
  | implementation {e : Entity} (he : e ∈ g.nodes) :
      HasBody g o (.implementation (implementation o e)) (implementationBody o e)
  | metadata {e : Entity} (he : e ∈ g.nodes) :
      HasBody g o (.metadata (metadata g o e)) (metadataBody g e)
  | registry (packageName : String) :
      HasBody g o (.registry (packageRegistry g o packageName))
        (registryBody (packageRegistry g o packageName))

/-- The name is that of the metadata of a related type, which has the same qualified name as the
type of the file but another simple name. -/
def IsNamesake (g : Graph) (o : DeriveOptions) (a : Artifact) (name : String) : Prop :=
  ∃ e ∈ g.nodes, a = .metadata (metadata g o e) ∧ ∃ p ∈ e.persistentProperties, ∃ edge,
    g.edge? e.qualifiedName p.name = some edge ∧ edge.target.qualifiedName = e.qualifiedName ∧
      edge.target.simpleName ≠ e.simpleName ∧ edge.target.metadataClass = name

/-- The file binds all names that are used in the lines, except those of namesakes. -/
def Supplies (g : Graph) (o : DeriveOptions) (a : Artifact) (body : List (List Piece)) : Prop :=
  AllWithin a.BindsType (fun name => a.BindsValue name ∨ g.IsNamesake o a name) body

theorem supplies_implementation (e : Entity) :
    g.Supplies o (.implementation (implementation o e)) (implementationBody o e) := by
  have hruntime (name : String) (hr : ⟨o.runtimeModule, name, false⟩ ∈ implementationSupport o e) :
      Import.Brings (Artifact.implementation (implementation o e)).imports
        ⟨o.runtimeModule, name, false⟩ :=
    brings_implementation_iff.2 (Or.inl hr)
  have hsource : Import.Brings (Artifact.implementation (implementation o e)).imports
      (sourceRequest o e e.implementationClass e.isInterface) :=
    brings_implementation_iff.2 (Or.inr rfl)
  have hdescribe := hruntime "describeEntity" (by simp [implementationSupport])
  have hhash := hruntime "hashValues" (by simp [implementationSupport])
  have hequals := hruntime "valueEquals" (by simp [implementationSupport])
  refine ImplementationWithin.body ⟨?_, fun hclass => ?_, ?_, ?_, ?_, fun hstate => ?_, ?_⟩
  · exact Artifact.bindsType hsource
  · rw [hclass] at hsource
    exact Or.inl (Artifact.bindsValue hsource)
  · exact Or.inl (Artifact.bindsValue hdescribe)
  · exact Or.inl (Artifact.bindsValue hhash)
  · exact Or.inl (Artifact.bindsValue hequals)
  · have hbrings := hruntime "PropertyState" (by simp [implementationSupport, hstate])
    exact ⟨Artifact.bindsType hbrings, Or.inl (Artifact.bindsValue hbrings)⟩
  · exact Or.inl (Or.inl rfl)

theorem supplies_metadata (he : e ∈ g.nodes) :
    g.Supplies o (.metadata (metadata g o e)) (metadataBody g e) := by
  have hruntime (name : String) (typeOnly : Bool)
      (hr : ⟨o.runtimeModule, name, typeOnly⟩ ∈ metadataSupport o e) :
      Import.Brings (Artifact.metadata (metadata g o e)).imports
        ⟨o.runtimeModule, name, typeOnly⟩ :=
    brings_metadata_iff.2 (Or.inl hr)
  have hsource : Import.Brings (Artifact.metadata (metadata g o e)).imports
      (sourceRequest o e e.metadataClass true) :=
    brings_metadata_iff.2 (Or.inr (Or.inl rfl))
  have hattribute := hruntime "Attribute" true (by simp [metadataSupport, typeSupport])
  have htype := hruntime "Type" true (by simp [metadataSupport, typeSupport])
  have hattributes := hruntime "AttributeBuilder" false (by simp [metadataSupport, typeSupport])
  have htypes := hruntime "TypeBuilder" false (by simp [metadataSupport, typeSupport])
  refine MetadataWithin.body ⟨Artifact.bindsType hsource, Artifact.bindsType hattribute,
    Artifact.bindsType htype, Or.inl (Artifact.bindsValue hattributes),
    Or.inl (Artifact.bindsValue htypes), fun p hp hcard => ?_, fun c hc => ?_,
    fun p hp edge hedge => ?_, Or.inl (Or.inl rfl)⟩
  · have hmem : ⟨o.runtimeModule, "Cardinality", false⟩ ∈ metadataSupport o e :=
      mem_metadataSupport_iff.2 (Or.inr ⟨p, hp, hcard, rfl⟩)
    exact Or.inl (Artifact.bindsValue (hruntime _ _ hmem))
  · obtain ⟨hc, hne⟩ := Option.filter_eq_some_iff.1 hc
    obtain ⟨himpl, hc⟩ := Option.ite_none_right_eq_some.1 hc
    cases hc
    have hbrings : Import.Brings (Artifact.metadata (metadata g o e)).imports
        (classRequest o e e e.implementationClass) :=
      brings_implementationClass himpl (of_decide_eq_true hne)
    exact Or.inl (Artifact.bindsValue hbrings)
  · by_cases hself : edge.target.qualifiedName = e.qualifiedName
    · by_cases hsimple : edge.target.simpleName = e.simpleName
      · have hclass : e.metadataClass = edge.target.metadataClass := by
          unfold Entity.metadataClass
          rw [hsimple]
        exact Or.inl (Or.inl (congrArg some hclass))
      · exact Or.inr ⟨e, he, rfl, p, hp, edge, hedge, hself, hsimple, rfl⟩
    · have hbrings : Import.Brings (Artifact.metadata (metadata g o e)).imports
          (classRequest o e edge.target edge.target.metadataClass) := brings_related hp hedge hself
      exact Or.inl (Artifact.bindsValue hbrings)

theorem supplies_registry (p : String) :
    g.Supplies o (.registry (packageRegistry g o p)) (registryBody (packageRegistry g o p)) := by
  have hruntime (name : String) (typeOnly : Bool)
      (hr : ⟨o.runtimeModule, name, typeOnly⟩ ∈ registrySupport o) :
      Import.Brings (Artifact.registry (packageRegistry g o p)).imports
        ⟨o.runtimeModule, name, typeOnly⟩ :=
    brings_registry_iff.2 (Or.inl hr)
  have hmodel := hruntime "EntityModel" true (by simp [registrySupport])
  have hcreate := hruntime "createEntityModel" false (by simp [registrySupport])
  refine allWithin_registryBody (Artifact.bindsType hmodel)
    (Or.inl (Artifact.bindsValue hcreate)) fun c hc => ?_
  have hclasses := Text.mem_collated_iff.1 hc
  simp only [List.mem_map, List.mem_filter] at hclasses
  obtain ⟨_, ⟨⟨⟨e, he, rfl⟩, hkind⟩, hp⟩, rfl⟩ := hclasses
  have hbrings : Import.Brings (Artifact.registry (packageRegistry g o p)).imports
      ⟨"./" ++ e.metadataClass, e.metadataClass, false⟩ :=
    brings_registry_iff.2 (Or.inr ⟨e, he, eq_of_beq hkind, eq_of_beq hp, rfl⟩)
  exact Or.inl (Artifact.bindsValue hbrings)

/-- Where qualified names tell the types apart, no metadata refers to a namesake. -/
theorem IsKeyed.not_isNamesake (hg : g.IsKeyed) (hclosed : g.IsClosed) (a : Artifact)
    (name : String) : ¬ g.IsNamesake o a name := by
  rintro ⟨e, he, -, p, -, edge, hedge, hself, hsimple, -⟩
  have htarget := hclosed edge (List.mem_of_find?_eq_some hedge)
  rw [hg.node_eq htarget he hself] at hsimple
  exact hsimple rfl

/-- The files of such a graph bind all names that they use. -/
theorem Supplies.of_isKeyed {a : Artifact} {body : List (List Piece)} (h : g.Supplies o a body)
    (hg : g.IsKeyed) (hclosed : g.IsClosed) : AllWithin a.BindsType a.BindsValue body := by
  intro ps hps q hq
  refine (h ps hps q hq).imp fun name hname => ?_
  exact hname.resolve_right (hg.not_isNamesake hclosed a name)

theorem exists_hasBody {a : Artifact} (ha : a ∈ g.artifacts o) : ∃ body, g.HasBody o a body := by
  rcases mem_artifacts_cases ha with ⟨e, he, -, rfl⟩ | ⟨e, he, rfl⟩ | ⟨-, e, -, -, rfl⟩
  · exact ⟨_, .implementation he⟩
  · exact ⟨_, .metadata he⟩
  · exact ⟨_, .registry e.packageName⟩

theorem HasBody.isWritten {a : Artifact} {body : List (List Piece)} (h : g.HasBody o a body) :
    a.IsWritten body := by
  cases h with
  | implementation he => exact isWritten_implementation o _
  | metadata he => exact isWritten_metadata g _ o
  | registry p => exact isWritten_registry _

theorem HasBody.supplies {a : Artifact} {body : List (List Piece)} (h : g.HasBody o a body) :
    g.Supplies o a body := by
  cases h with
  | implementation he => exact supplies_implementation _
  | metadata he => exact supplies_metadata he
  | registry p => exact supplies_registry p

theorem wellFormed_imports {a : Artifact} (ha : a ∈ g.artifacts o) :
    Import.WellFormed o.runtimeModule a.imports := by
  rcases mem_artifacts_cases ha with ⟨e, -, -, rfl⟩ | ⟨e, -, rfl⟩ | ⟨-, e, -, -, rfl⟩
  · exact Import.wellFormed_collect _ _
  · exact Import.wellFormed_collect _ _
  · exact Import.wellFormed_collect _ _

/-- The import lines of a file have the right form, and bind what the body of the file uses, except
for namesakes. -/
theorem imports_supply {a : Artifact} (ha : a ∈ g.artifacts o) :
    Import.WellFormed o.runtimeModule a.imports ∧ (∃ body, g.HasBody o a body) ∧
      ∀ body, g.HasBody o a body → a.IsWritten body ∧ g.Supplies o a body :=
  ⟨wellFormed_imports ha, exists_hasBody ha, fun _ hbody => ⟨hbody.isWritten, hbody.supplies⟩⟩

end Graph

/-! ## Names that are and are not supplied -/

namespace Sample

/-- Another type of the customer's qualified name. -/
def client : Entity := { customer with simpleName := "Client" }

/-- The node of the qualified name is the customer, and the target of its relationship the client. -/
def homonyms : Graph := Graph.assemble [customer, client] [] []

end Sample

namespace Graph

open Derivation Piece

/-- The metadata of a customer refers to that of its purchases, which it imports. -/
theorem supply_of_people :
    .metadata (metadata Sample.people Sample.beside Sample.buyer) ∈
        Sample.people.artifacts Sample.beside ∧
      Import.WellFormed "runtime" (metadata Sample.people Sample.beside Sample.buyer).imports ∧
      [text "    .setReferencedType(() => ", value "Purchase_", text ".TYPE)"] ∈
        metadataBody Sample.people Sample.buyer ∧
      (Artifact.metadata (metadata Sample.people Sample.beside Sample.buyer)).BindsValue
        "Purchase_" := by
  have hbuyer : Sample.buyer ∈ Sample.people.nodes := List.mem_cons_self
  have ha : .metadata (metadata Sample.people Sample.beside Sample.buyer) ∈
      Sample.people.artifacts Sample.beside := metadata_mem_artifacts_iff.2 ⟨_, hbuyer, rfl⟩
  have hline : [text "    .setReferencedType(() => ", value "Purchase_", text ".TYPE)"] ∈
      metadataBody Sample.people Sample.buyer := by decide +kernel
  obtain ⟨himports, -, hbody⟩ := imports_supply ha
  obtain ⟨-, hsupplies⟩ := hbody _ (.metadata hbuyer)
  refine ⟨ha, himports, hline, ?_⟩
  rcases hsupplies _ hline (value "Purchase_") (by simp) with hvalue | hnamesake
  · exact hvalue
  · have hkeyed : Sample.people.IsKeyed := isKeyed_assemble (by decide +kernel)
    have hclosed : Sample.people.IsClosed := isClosed_assemble (by decide +kernel) List.nodup_nil
    exact absurd hnamesake (hkeyed.not_isNamesake hclosed _ _)

/-- The metadata of a customer refers to that of a client, which it does not import. -/
theorem exists_missing_import :
    .metadata (metadata Sample.homonyms Sample.beside Sample.customer) ∈
        Sample.homonyms.artifacts Sample.beside ∧
      [text "    .setReferencedType(() => ", value "Client_", text ".TYPE)"] ∈
        metadataBody Sample.homonyms Sample.customer ∧
      (Artifact.metadata (metadata Sample.homonyms Sample.beside Sample.customer)).IsWritten
        (metadataBody Sample.homonyms Sample.customer) ∧
      ¬ (Artifact.metadata (metadata Sample.homonyms Sample.beside Sample.customer)).BindsType
        "Client_" := by
  refine ⟨metadata_mem_artifacts_iff.2 ⟨_, List.mem_cons_self, rfl⟩, by decide +kernel,
    isWritten_metadata _ _ _, ?_⟩
  have hedges : ∀ edge ∈ Sample.homonyms.edges,
      edge.target.qualifiedName = Sample.customer.qualifiedName := by decide +kernel
  rintro (hown | ⟨r, hr, hname⟩)
  · exact absurd hown (by decide)
  · rcases brings_metadata_iff.1 hr with hr | rfl | ⟨-, -, rfl⟩ | ⟨t, ⟨_, -, edge, hedge, rfl, hne⟩, -⟩
    · have hruntime := metadataSupport_runtime hr
      rw [hname] at hruntime
      exact absurd hruntime (by decide)
    · exact absurd hname (by decide)
    · exact absurd hname (by decide)
    · exact hne (hedges edge (List.mem_of_find?_eq_some hedge))

end Graph

end Metamodel
