import Mathlib.Data.List.Perm.Basic
import Metamodel.Proofs.Artifact.Agreement
import Metamodel.Proofs.Artifact.Import
import Metamodel.Proofs.Graph.Assembly

/-!
# Registries

The entities of a graph are divided among the registries: there is one for each package that has
entities, and it lists the metadata classes of these (`lists_registry`). So each entity is listed
once, wherever its node stands (`registries_partition`).
-/

namespace Metamodel

/-! ## Groups -/

/-- Items are as many as in the groups of their keys. -/
theorem perm_flatMap_filter {α κ : Type} [BEq κ] [LawfulBEq κ] {key : α → κ} {keys : List κ}
    (hkeys : keys.Nodup) {xs : List α} (h : ∀ x ∈ xs, key x ∈ keys) :
    (keys.flatMap fun k => xs.filter (key · == k)).Perm xs := by
  induction keys generalizing xs with
  | nil =>
    rw [List.eq_nil_iff_forall_not_mem.2 fun x hx => List.not_mem_nil (h x hx)]
    exact List.Perm.nil
  | cons k keys ih =>
    obtain ⟨hk, hkeys⟩ := List.nodup_cons.1 hkeys
    have hrest : ∀ x ∈ xs.filter (!key · == k), key x ∈ keys := by
      intro x hx
      obtain ⟨hx, hne⟩ := List.mem_filter.1 hx
      have hne : key x ≠ k := by simpa using hne
      exact (List.mem_cons.1 (h x hx)).resolve_left hne
    have hgroups : (keys.flatMap fun k' => xs.filter (key · == k')) =
        keys.flatMap fun k' => (xs.filter (!key · == k)).filter (key · == k') := by
      apply List.flatMap_congr
      intro k' hk'
      have hne : k' ≠ k := fun heq => hk (heq ▸ hk')
      rw [List.filter_filter]
      apply List.filter_congr
      intro x _
      by_cases hx : key x = k'
      · simp [hx, hne]
      · simp [hx]
    rw [List.flatMap_cons, hgroups]
    exact ((ih hkeys hrest).append_left _).trans (List.filter_append_perm _ xs)

/-! ## The registry of a package -/

/-- The entities of a package, without superclasses and embeddables. -/
def Graph.entitiesIn (g : Graph) (packageName : String) : List Entity :=
  (g.nodes.filter (·.kind == .entity)).filter (·.packageName == packageName)

/-- The registry lists the metadata classes of the entities, each as often as there are entities that
have it, in dictionary order; and it imports them from beside itself. -/
structure RegistryArtifact.Lists (r : RegistryArtifact) (es : List Entity) : Prop where
  perm : r.types.Perm (es.map Entity.metadataClass)
  sorted : r.types.Pairwise fun a b => (Text.collate a b).isLE = true
  imported : ∀ e ∈ es, Import.Brings r.imports ⟨"./" ++ e.metadataClass, e.metadataClass, false⟩

namespace Derivation

variable (g : Graph) (o : DeriveOptions)

theorem lists_registry (packageName : String) (es : List Entity) :
    (registry o packageName (es.map (metadata g o))).Lists es where
  perm := by
    have hclasses : (es.map (metadata g o)).map (·.className) = es.map Entity.metadataClass := by
      rw [List.map_map]
      rfl
    show (Text.collated ((es.map (metadata g o)).map (·.className))).Perm _
    rw [hclasses]
    exact List.mergeSort_perm _ _
  sorted := Text.pairwise_mergeSort (Text.transCmp_on id) _
  imported e he := by
    apply Import.brings_collect_iff.2
    apply List.mem_append_right
    rw [List.map_map, List.map_map]
    exact List.mem_map_of_mem he

/-! ## The registries of a graph -/

/-- The packages that have entities, in dictionary order. -/
def entityPackages : List String :=
  Text.collated ((g.nodes.filter (·.kind == .entity)).map (·.packageName)).eraseDups

theorem mem_entityPackages_iff {p : String} : p ∈ entityPackages g ↔ g.entitiesIn p ≠ [] := by
  unfold entityPackages Graph.entitiesIn
  rw [Text.mem_collated_iff, List.mem_eraseDups, List.mem_map, Ne, List.filter_eq_nil_iff]
  simp only [not_forall, not_not, beq_iff_eq, exists_prop]

theorem nodup_entityPackages : (entityPackages g).Nodup :=
  (List.mergeSort_perm _ _).nodup_iff.2 (nodup_eraseDups _)

/-- There is a registry for each package that has entities. -/
theorem registries_eq : registries o (g.nodes.map (metadata g o)) =
    (entityPackages g).map fun p => registry o p ((g.entitiesIn p).map (metadata g o)) := by
  have hentities : (g.nodes.map (metadata g o)).filter (·.entityKind == .entity) =
      (g.nodes.filter (·.kind == .entity)).map (metadata g o) := by
    rw [List.filter_map]
    rfl
  unfold registries
  simp only [hentities, List.map_map, List.filter_map]
  rfl

theorem map_packageName_registries :
    (registries o (g.nodes.map (metadata g o))).map (·.packageName) = entityPackages g := by
  rw [registries_eq, List.map_map]
  exact List.map_id _

theorem lists_of_mem_registries {r : RegistryArtifact}
    (hr : r ∈ registries o (g.nodes.map (metadata g o))) : r.Lists (g.entitiesIn r.packageName) := by
  rw [registries_eq] at hr
  obtain ⟨p, -, rfl⟩ := List.mem_map.1 hr
  exact lists_registry g o p _

/-- The registries together list what the entities of all packages are. -/
theorem perm_flatMap_types :
    ((registries o (g.nodes.map (metadata g o))).flatMap (·.types)).Perm
      ((g.nodes.filter (·.kind == .entity)).map Entity.metadataClass) := by
  have hgroups : ((entityPackages g).flatMap g.entitiesIn).Perm
      (g.nodes.filter (·.kind == .entity)) := by
    apply perm_flatMap_filter (nodup_entityPackages g)
    intro e he
    rw [entityPackages, Text.mem_collated_iff, List.mem_eraseDups]
    exact List.mem_map_of_mem he
  rw [registries_eq, List.flatMap_map]
  refine List.Perm.trans ?_ (hgroups.map Entity.metadataClass)
  rw [List.map_flatMap]
  exact List.Perm.flatMap_left _ fun p _ => (lists_registry g o p _).perm

theorem artifacts_eq (h : o.generateModel = true) :
    g.artifacts o = (g.nodes.map (nodeFiles g o)).flatMap NodeFiles.artifacts ++
      (registries o (g.nodes.map (metadata g o))).map .registry := by
  rw [Graph.artifacts, if_pos h, List.flatMap_map]
  congr 1
  exact List.flatMap_congr fun e _ => (artifacts_nodeFiles g o e).symm

theorem isSome_implementation_nodeFiles (e : Entity) :
    (nodeFiles g o e).implementation.isSome = e.hasImplementation := by
  unfold nodeFiles
  cases e.hasImplementation <;> rfl

end Derivation

namespace Graph

open Derivation

/-- The files of a graph are those of its nodes in order, for each node its metadata behind the
implementation that it may have, and then the registries. There is a registry for each package with
an entity, in the dictionary order of the packages, and it lists the entities of the package. So the
registries list every entity once, and nothing else. -/
theorem registries_partition {g : Graph} {o : DeriveOptions} (h : o.generateModel = true) :
    ∃ (files : List NodeFiles) (registries : List RegistryArtifact),
      g.artifacts o = files.flatMap NodeFiles.artifacts ++ registries.map .registry ∧
      List.Forall₂ NodeFiles.Describe files g.nodes ∧
      files.map (·.implementation.isSome) = g.nodes.map Entity.hasImplementation ∧
      files.map (·.metadata.className) = g.nodes.map Entity.metadataClass ∧
      (registries.map (·.packageName)).Pairwise (fun p q => Text.collate p q = .lt) ∧
      (∀ p, p ∈ registries.map (·.packageName) ↔ g.entitiesIn p ≠ []) ∧
      (∀ r ∈ registries, r.Lists (g.entitiesIn r.packageName)) ∧
      (registries.flatMap (·.types)).Perm
        ((g.nodes.filter (·.kind == .entity)).map Entity.metadataClass) := by
  refine ⟨_, _, artifacts_eq g o h, ?_, ?_, ?_, ?_, ?_, fun r => lists_of_mem_registries g o,
    perm_flatMap_types g o⟩
  · rw [List.forall₂_map_left_iff, List.forall₂_same]
    exact fun e _ => describe_nodeFiles g o e
  · rw [List.map_map]
    exact List.map_congr_left fun e _ => isSome_implementation_nodeFiles g o e
  · rw [List.map_map]
    rfl
  · rw [map_packageName_registries]
    exact Text.pairwise_lt_collated (nodup_eraseDups _)
  · intro p
    rw [map_packageName_registries]
    exact mem_entityPackages_iff g

end Graph

namespace Sample

def typeIn (packageName : String) (kind : EntityKind) (name : String) : Entity :=
  { mapped kind name [] with packageName }

/-- The entities of two packages, and a superclass in one of its own. -/
def shelves : Graph :=
  Graph.assemble [typeIn "shop.b" .entity "Pen", typeIn "shop.a" .entity "Ink",
    typeIn "shop.b" .entity "Nib"] [typeIn "shop.c" .superclass "Tool"] []

def withModels : DeriveOptions := ⟨"runtime", "generated", true⟩

end Sample

/-- One package has a registry of its two entities, and the package of the superclass has none. -/
theorem Graph.registries_of_shelves :
    ∃ (files : List NodeFiles) (registries : List RegistryArtifact),
      Sample.withModels.generateModel = true ∧
      Sample.shelves.artifacts Sample.withModels =
          files.flatMap NodeFiles.artifacts ++ registries.map .registry ∧
        (∃ r ∈ registries, r.packageName = "shop.b" ∧ r.types.Perm ["Pen_", "Nib_"]) ∧
        "shop.c" ∉ registries.map (·.packageName) := by
  have h : Sample.withModels.generateModel = true := rfl
  obtain ⟨files, registries, hartifacts, -, -, -, -, hpackages, hlists, -⟩ :=
    registries_partition (g := Sample.shelves) h
  refine ⟨files, registries, h, hartifacts, ?_, ?_⟩
  · have hmem : "shop.b" ∈ registries.map (·.packageName) := (hpackages _).2 (by decide +kernel)
    obtain ⟨r, hr, hname⟩ := List.mem_map.1 hmem
    have hperm := (hlists r hr).perm
    rw [hname] at hperm
    exact ⟨r, hr, hname, hperm⟩
  · rw [hpackages]
    decide +kernel

end Metamodel
