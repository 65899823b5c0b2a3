import Metamodel.Proofs.Artifact.Derivation

/-!
# Parts of a graph

A graph can be part of another one: it has the nodes of some names, and the relationships of these
(`IsPart`). Types that refer to nothing outside of the part make up such a part, whatever else there
is (`isPart_assemble`). Then the artifacts of its nodes are the same in both graphs, and so are the
registries of all packages, except for one if the nodes outside all lie in it (`filter_artifacts`).
-/

namespace Metamodel

/-- The name of the type that an artifact is made for; registries are made for none. -/
def Artifact.entity? : Artifact → Option String
  | .implementation i => some i.entity
  | .metadata m => some m.entity
  | .registry _ => none

/-- Whether the artifact is the registry of a package. -/
def Artifact.isRegistryOf (packageName : String) : Artifact → Bool
  | .registry r => r.packageName == packageName
  | _ => false

/-- The type that a property refers to as a relationship has a name that is kept, whether or not
there is a type of the name. -/
def Property.RefersWithin (p : Property) (keep : String → Bool) : Prop :=
  ∀ ref, relationshipTarget? p.type p.isCollection = some ref → keep ref.name = true

/-- A list that is gathered item by item, filtered by what tells the items apart. -/
theorem filter_flatMap_of {α β : Type} {f : α → List β} {p : α → Bool} {q : β → Bool} {xs : List α}
    (h : ∀ x ∈ xs, ∀ y ∈ f x, q y = p x) : (xs.flatMap f).filter q = (xs.filter p).flatMap f := by
  induction xs with
  | nil => rfl
  | cons x xs ih =>
    have hx := h x List.mem_cons_self
    rw [List.flatMap_cons, List.filter_append, ih fun y hy => h y (List.mem_cons_of_mem x hy),
      List.filter_cons]
    cases hp : p x with
    | true =>
      rw [if_pos rfl, List.flatMap_cons, List.filter_eq_self.2 fun y hy => (hx y hy).trans hp]
    | false =>
      have hnone : (f x).filter q = [] := by
        refine List.filter_eq_nil_iff.2 fun y hy hq => ?_
        rw [hx y hy, hp] at hq
        cases hq
      rw [if_neg Bool.false_ne_true, hnone, List.nil_append]

namespace Graph

variable {keep : String → Bool}

/-- The graph has those nodes of another one whose names are kept, and their relationships. -/
structure IsPart (keep : String → Bool) (g g' : Graph) : Prop where
  nodes : g.nodes = g'.nodes.filter fun e => keep e.qualifiedName
  edges : g.edges = g'.edges.filter fun edge => keep edge.source.qualifiedName

/-! ## Assembling a part -/

theorem lastNamed?_filter {name : String} (h : keep name = true) (es : List Entity) :
    lastNamed? (es.filter fun e => keep e.qualifiedName) name = lastNamed? es name := by
  unfold lastNamed?
  rw [← List.filter_reverse]
  exact find?_filter_key keep h es.reverse

theorem targetOf?_filter {p : Property} (h : p.RefersWithin keep) (es ss : List Entity) :
    targetOf? (es.filter fun e => keep e.qualifiedName) (ss.filter fun e => keep e.qualifiedName) p =
      targetOf? es ss p := by
  unfold targetOf?
  cases href : (relationshipTarget? p.type p.isCollection).filter (·.kind == .named) with
  | none => rfl
  | some ref =>
    have hkeep := h ref (Option.filter_eq_some_iff.1 href).1
    simp only [lastNamed?_filter hkeep]

theorem edges_assemble (es ss ms : List Entity) :
    (assemble es ss ms).edges = (assemble es ss ms).nodes.flatMap fun o =>
      o.properties.filterMap fun p => (targetOf? es ss p).map (⟨o, ·, p⟩) := by
  show List.filterMap _ (List.flatMap _ _) = _
  rw [List.filterMap_flatMap]
  simp only [List.filterMap_map]
  rfl

/-- Types whose properties refer to nothing outside make up a part of the graph of all types. -/
theorem isPart_assemble {es ss ms : List Entity}
    (h : ∀ e ∈ es ++ ss ++ ms, keep e.qualifiedName = true →
      ∀ p ∈ e.properties, p.RefersWithin keep) :
    IsPart keep
      (assemble (es.filter fun e => keep e.qualifiedName) (ss.filter fun e => keep e.qualifiedName)
        (ms.filter fun e => keep e.qualifiedName))
      (assemble es ss ms) := by
  have hnodes : (assemble (es.filter fun e => keep e.qualifiedName)
        (ss.filter fun e => keep e.qualifiedName)
        (ms.filter fun e => keep e.qualifiedName)).nodes =
      (assemble es ss ms).nodes.filter fun e => keep e.qualifiedName := by
    show distinctNodes _ = (distinctNodes _).filter _
    rw [← List.filter_append, ← List.filter_append, distinctNodes_eq, distinctNodes_eq,
      filter_firstBy]
  refine ⟨hnodes, ?_⟩
  rw [edges_assemble, edges_assemble, hnodes]
  have hsource (o : Entity) (edge : Edge) (hedge : edge ∈ o.properties.filterMap fun p =>
      (targetOf? es ss p).map (⟨o, ·, p⟩)) : keep edge.source.qualifiedName = keep o.qualifiedName := by
    obtain ⟨p, -, hp⟩ := List.mem_filterMap.1 hedge
    obtain ⟨target, -, rfl⟩ := Option.map_eq_some_iff.1 hp
    rfl
  rw [filter_flatMap_of fun o _ edge hedge => hsource o edge hedge]
  refine List.flatMap_congr fun o ho => ?_
  obtain ⟨hmem, hkeep⟩ := List.mem_filter.1 ho
  have hinput : o ∈ es ++ ss ++ ms := by
    have hdistinct : o ∈ distinctNodes (es ++ ss ++ ms) := hmem
    rw [distinctNodes_eq] at hdistinct
    exact (firstBy_sublist _).subset hdistinct
  exact List.filterMap_congr fun p hp => by rw [targetOf?_filter (h o hinput hkeep p hp)]

namespace IsPart

variable {g g' : Graph} (h : IsPart keep g g')

include h

/-! ## Artifacts of a part -/

theorem edge?_eq {owner : String} (hkeep : keep owner = true) : g.edge? owner = g'.edge? owner := by
  funext property
  rw [edge?_eq_find?, edge?_eq_find?, h.edges]
  exact find?_filter_key (fun key : String × String => keep key.1) hkeep g'.edges

theorem artifacts_nodes (o : DeriveOptions) :
    g.nodes.flatMap (Derivation.nodeArtifacts g o) =
      (g'.nodes.flatMap (Derivation.nodeArtifacts g' o)).filter (·.entity?.all keep) := by
  have hentity (e : Entity) (a : Artifact) (ha : a ∈ Derivation.nodeArtifacts g' o e) :
      a.entity?.all keep = keep e.qualifiedName := by
    rcases List.mem_append.1 ha with ha | ha
    · split at ha
      · rw [List.mem_singleton.1 ha]
        rfl
      · cases ha
    · rw [List.mem_singleton.1 ha]
      rfl
  rw [filter_flatMap_of fun e _ a ha => hentity e a ha, ← h.nodes]
  refine List.flatMap_congr fun e he => ?_
  rw [h.nodes] at he
  exact Derivation.nodeArtifacts_congr (h.edge?_eq (List.mem_filter.1 he).2) o

/-- Metadata outside of one package is the same when all nodes outside of the part lie in it. -/
theorem metadata_filter {packageName : String}
    (hpackage : ∀ e ∈ g'.nodes, keep e.qualifiedName = false → e.packageName = packageName)
    (o : DeriveOptions) :
    (g.nodes.map (Derivation.metadata g o)).filter (·.packageName != packageName) =
      (g'.nodes.map (Derivation.metadata g' o)).filter (·.packageName != packageName) := by
  have hmap : g.nodes.map (Derivation.metadata g o) = g.nodes.map (Derivation.metadata g' o) := by
    refine List.map_congr_left fun e he => ?_
    rw [h.nodes] at he
    exact Derivation.metadata_congr (h.edge?_eq (List.mem_filter.1 he).2) o
  rw [hmap, h.nodes, List.filter_map, List.filter_map, List.filter_filter]
  refine congrArg (List.map _) (List.filter_congr fun e he => ?_)
  show (e.packageName != packageName && keep e.qualifiedName) = (e.packageName != packageName)
  cases hkeep : keep e.qualifiedName with
  | true => rw [Bool.and_true]
  | false => rw [hpackage e he hkeep, bne_self_eq_false, Bool.false_and]

/-- The artifacts of a part are those of the whole graph that are not made for nodes outside of it,
apart from the registry of the package in which these lie. -/
theorem filter_artifacts {packageName : String}
    (hpackage : ∀ e ∈ g'.nodes, keep e.qualifiedName = false → e.packageName = packageName)
    (o : DeriveOptions) :
    (g.artifacts o).filter (!·.isRegistryOf packageName) =
      (g'.artifacts o).filter fun a => !a.isRegistryOf packageName && a.entity?.all keep := by
  have hothers (all : List MetadataArtifact) :
      ((Derivation.registries o all).map Artifact.registry).filter (!·.isRegistryOf packageName) =
        (Derivation.registries o (all.filter (·.packageName != packageName))).map
          Artifact.registry := by
    rw [List.filter_map, ← Derivation.filter_registries]
    rfl
  have hkept (registries : List RegistryArtifact) :
      (registries.map Artifact.registry).filter (·.entity?.all keep) =
        registries.map Artifact.registry := by
    refine List.filter_eq_self.2 fun a ha => ?_
    obtain ⟨r, -, rfl⟩ := List.mem_map.1 ha
    rfl
  rw [← List.filter_filter]
  unfold Graph.artifacts
  rw [List.filter_append, List.filter_append, ← h.artifacts_nodes, List.filter_append]
  refine (List.append_right_inj _).2 ?_
  cases o.generateModel with
  | false => rfl
  | true => rw [if_pos rfl, if_pos rfl, hkept, hothers, hothers, h.metadata_filter hpackage]

end IsPart

end Graph

end Metamodel
