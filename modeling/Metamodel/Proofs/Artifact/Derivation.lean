import Metamodel.Artifact.Derivation
import Metamodel.Proofs.Artifact.Import
import Metamodel.Proofs.Graph.Order

/-!
# Artifacts up to order

Of the graph, a derivation asks for nothing but single relationships, and a registry sorts what it
lists. So the artifacts of graphs that have the same contents are the same, in an order that
follows the nodes (`artifacts_perm`).
-/

namespace Metamodel

namespace Derivation

/-- The metadata of a type depends on a graph through the relationships of the type's properties. -/
theorem metadata_congr {g g' : Graph} {e : Entity}
    (h : g.edge? e.qualifiedName = g'.edge? e.qualifiedName) (o : DeriveOptions) :
    metadata g o e = metadata g' o e := by
  have hmodel : attributeModel g e = attributeModel g' e := by
    funext p
    unfold attributeModel
    rw [h]
  have hrequests : attributeRequests g e = attributeRequests g' e := by
    funext o fileModule p
    unfold attributeRequests
    rw [h]
  unfold metadata
  rw [hmodel, hrequests]

theorem nodeArtifacts_congr {g g' : Graph} {e : Entity}
    (h : g.edge? e.qualifiedName = g'.edge? e.qualifiedName) (o : DeriveOptions) :
    nodeArtifacts g o e = nodeArtifacts g' o e := by
  unfold nodeArtifacts
  rw [metadata_congr h]

/-- The registry of a package does not depend on the order of the package's members. -/
theorem registry_perm (o : DeriveOptions) (packageName : String) {ms ms' : List MetadataArtifact}
    (h : ms.Perm ms') : registry o packageName ms = registry o packageName ms' := by
  have hclasses := h.map MetadataArtifact.className
  have htypes := Text.collated_perm hclasses
  have himports := Import.collect_perm o.runtimeModule
    ((hclasses.map fun c => (⟨"./" ++ c, c, false⟩ : ImportRequest)).append_left
      [⟨o.runtimeModule, "createEntityModel", false⟩, ⟨o.runtimeModule, "EntityModel", true⟩])
  simp only [registry, htypes, himports]

theorem registries_perm (o : DeriveOptions) {ms ms' : List MetadataArtifact} (h : ms.Perm ms') :
    registries o ms = registries o ms' := by
  have hentities := h.filter (·.entityKind == .entity)
  unfold registries
  simp only
  rw [Text.collated_perm (eraseDups_perm (hentities.map (·.packageName)))]
  refine List.map_congr_left fun packageName _ => ?_
  exact registry_perm o packageName (hentities.filter _)

/-- The registries of all packages but one list the types of those packages. -/
theorem filter_registries (o : DeriveOptions) (packageName : String) (ms : List MetadataArtifact) :
    (registries o ms).filter (·.packageName != packageName) =
      registries o (ms.filter (·.packageName != packageName)) := by
  have hentities : (ms.filter (·.packageName != packageName)).filter (·.entityKind == .entity) =
      (ms.filter (·.entityKind == .entity)).filter (·.packageName != packageName) :=
    List.filter_comm _ _ ms
  unfold registries
  simp only [hentities]
  generalize ms.filter (·.entityKind == .entity) = entities
  have hpackages : (Text.collated (entities.map (·.packageName)).eraseDups).filter
        (· != packageName) =
      Text.collated ((entities.filter (·.packageName != packageName)).map
        (·.packageName)).eraseDups := by
    rw [Text.filter_collated, filter_eraseDups, List.filter_map]
    rfl
  rw [List.filter_map, ← hpackages]
  refine List.map_congr_left fun other hother => ?_
  have hne : (other != packageName) = true := (List.mem_filter.1 hother).2
  rw [List.filter_filter]
  refine congrArg (registry o other) (List.filter_congr fun m _ => ?_)
  cases hm : m.packageName == other with
  | false => rfl
  | true => rw [eq_of_beq hm, hne, Bool.and_self]

end Derivation

/-- Graphs that have the same contents have the same artifacts. -/
theorem Graph.SameContents.artifacts_perm {g g' : Graph} (h : g.SameContents g') (hg : g.IsKeyed)
    (o : DeriveOptions) : (g.artifacts o).Perm (g'.artifacts o) := by
  have hedge (e : Entity) : g.edge? e.qualifiedName = g'.edge? e.qualifiedName :=
    funext fun p => h.edge?_eq hg e.qualifiedName p
  have hmetadata : Derivation.metadata g o = Derivation.metadata g' o :=
    funext fun e => Derivation.metadata_congr (hedge e) o
  have hartifacts : Derivation.nodeArtifacts g o = Derivation.nodeArtifacts g' o :=
    funext fun e => Derivation.nodeArtifacts_congr (hedge e) o
  unfold Graph.artifacts
  rw [hartifacts, hmetadata, Derivation.registries_perm o (h.nodes.map _)]
  exact (h.nodes.flatMap_right _).append_right _

end Metamodel
