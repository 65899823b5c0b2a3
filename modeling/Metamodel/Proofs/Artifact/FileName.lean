import Mathlib.Data.List.Nodup
import Metamodel.Proofs.Artifact.File
import Metamodel.Proofs.Graph.Order

/-!
# File names that collide

Implementations, metadata classes and registries share the directory of their package, and some
packages share theirs. `Graph.FilesApart` names the five ways in which two files could have one
name; when there are none, and only then, the file names of a graph are distinct
(`nodup_fileNames_iff`).
-/

namespace Metamodel

namespace Derivation

theorem nodup_nodeArtifacts (g : Graph) (o : DeriveOptions) (e : Entity) :
    (nodeArtifacts g o e).Nodup := by
  unfold nodeArtifacts
  cases e.hasImplementation with
  | true =>
    rw [if_pos rfl, List.singleton_append, List.nodup_cons, List.mem_singleton]
    exact ⟨nofun, List.nodup_singleton _⟩
  | false => exact List.nodup_singleton _

/-- The files of a node tell which node it is. -/
theorem qualifiedName_eq_of_mem {g : Graph} {o : DeriveOptions} {e e' : Entity} {a : Artifact}
    (h : a ∈ nodeArtifacts g o e) (h' : a ∈ nodeArtifacts g o e') :
    e.qualifiedName = e'.qualifiedName := by
  rcases mem_nodeArtifacts_iff.1 h with ⟨-, rfl⟩ | rfl
  · rcases mem_nodeArtifacts_iff.1 h' with ⟨-, heq⟩ | heq
    · exact congrArg ImplementationArtifact.entity (Artifact.implementation.inj heq)
    · cases heq
  · rcases mem_nodeArtifacts_iff.1 h' with ⟨-, heq⟩ | heq
    · cases heq
    · exact congrArg MetadataArtifact.entity (Artifact.metadata.inj heq)

theorem nodup_registries (o : DeriveOptions) (all : List MetadataArtifact) :
    (registries o all).Nodup := by
  unfold registries
  refine List.Nodup.map (fun p q h => ?_) ?_
  · exact congrArg RegistryArtifact.packageName h
  · exact (List.mergeSort_perm _ _).nodup_iff.2 (nodup_eraseDups _)

end Derivation

/-- The names that a type of a proper package has when none is given to its implementation. -/
structure Entity.HasDefaultNames (e : Entity) : Prop where
  package : IsProperPackage e.packageName
  qualifiedName : e.qualifiedName = qualify e.packageName e.simpleName
  entityName : e.entityName = none
  noUnderscore : e.simpleName.toList.getLast? ≠ some '_'

namespace Graph

open Derivation

variable {g : Graph} {o : DeriveOptions}

/-- No file of a graph is derived twice. -/
theorem IsKeyed.nodup_artifacts (hg : g.IsKeyed) (o : DeriveOptions) : (g.artifacts o).Nodup := by
  have hnodes : (g.nodes.flatMap (nodeArtifacts g o)).Nodup := by
    rw [List.nodup_flatMap]
    refine ⟨fun e _ => nodup_nodeArtifacts g o e, ?_⟩
    have hnames := List.pairwise_map.1 hg.nodes
    exact hnames.imp fun hne a ha ha' => hne (qualifiedName_eq_of_mem ha ha')
  unfold artifacts
  rw [List.nodup_append]
  refine ⟨hnodes, ?_, ?_⟩
  · split
    · exact (nodup_registries o _).map fun r r' h => Artifact.registry.inj h
    · exact List.nodup_nil
  · rintro a ha b hb rfl
    obtain ⟨e, -, ha⟩ := List.mem_flatMap.1 ha
    split at hb
    · obtain ⟨r, -, rfl⟩ := List.mem_map.1 hb
      rcases mem_nodeArtifacts_iff.1 ha with ⟨-, heq⟩ | heq <;> cases heq
    · cases hb

/-- No two files of the graph have one name. -/
structure FilesApart (g : Graph) (generateModel : Bool) : Prop where
  metadata : ∀ e ∈ g.nodes, ∀ e' ∈ g.nodes, SameDirectory e.packageName e'.packageName →
    e.metadataClass = e'.metadataClass → e = e'
  implementations : ∀ e ∈ g.nodes, ∀ e' ∈ g.nodes, e.hasImplementation = true →
    e'.hasImplementation = true → SameDirectory e.packageName e'.packageName →
      e.implementationClass = e'.implementationClass → e = e'
  /-- a class can be named like the metadata of another -/
  implementation : ∀ e ∈ g.nodes, ∀ e' ∈ g.nodes, e.hasImplementation = true →
    SameDirectory e.packageName e'.packageName → e.implementationClass ≠ e'.metadataClass
  registries : generateModel = true → ∀ e ∈ g.nodes, ∀ e' ∈ g.nodes, e.kind = .entity →
    e'.kind = .entity → SameDirectory e.packageName e'.packageName → e.packageName = e'.packageName
  /-- a class can be named like a registry -/
  registry : generateModel = true → ∀ e ∈ g.nodes, e.hasImplementation = true →
    e.implementationClass ≠ "Models"

theorem toList_metadataClass (e : Entity) : e.metadataClass.toList = e.simpleName.toList ++ ['_'] := by
  rw [Entity.metadataClass, String.toList_append]
  rfl

theorem metadataClass_ne {name : String} (h : name.toList.getLast? ≠ some '_') (e : Entity) :
    e.metadataClass ≠ name := by
  rintro rfl
  rw [toList_metadataClass, List.getLast?_concat] at h
  exact h rfl

theorem metadataClass_ne_models (e : Entity) : e.metadataClass ≠ "Models" :=
  metadataClass_ne (by decide) e

theorem metadataClass_inj {t t' : Entity} :
    t.metadataClass = t'.metadataClass ↔ t.simpleName = t'.simpleName := by
  rw [← String.toList_inj, toList_metadataClass, toList_metadataClass, List.append_cancel_right_eq,
    String.toList_inj]

theorem kind_eq_of_hasImplementation {e : Entity} (h : e.hasImplementation = true) :
    e.kind = .entity := by
  unfold Entity.hasImplementation at h
  rw [Bool.and_eq_true] at h
  exact eq_of_beq h.1

end Graph

namespace Entity.HasDefaultNames

variable {e : Entity} (h : e.HasDefaultNames)
include h

theorem implementationClass_eq : e.implementationClass = "Generated" ++ e.simpleName := by
  rw [Entity.implementationClass, h.entityName, Option.getD_none]

theorem simpleName_ne_metadataClass (t : Entity) : e.simpleName ≠ t.metadataClass :=
  (Graph.metadataClass_ne h.noUnderscore t).symm

theorem implementationClass_ne_metadataClass (t : Entity) :
    e.implementationClass ≠ t.metadataClass := by
  rw [h.implementationClass_eq]
  refine (Graph.metadataClass_ne ?_ t).symm
  rw [String.toList_append, List.getLast?_append]
  cases hs : e.simpleName.toList.getLast? with
  | none => decide
  | some c =>
    rw [Option.some_or, ← hs]
    exact h.noUnderscore

end Entity.HasDefaultNames

namespace Graph

open Derivation

variable {g : Graph} {o : DeriveOptions}

section Names

variable (hnames : ∀ e ∈ g.nodes, e.HasClassNames)
include hnames

theorem noSlash_baseName {a : Artifact} (h : a ∈ g.artifacts o) : '/' ∉ a.baseName.toList := by
  rcases mem_artifacts_cases h with ⟨e, he, hi, rfl⟩ | ⟨e, he, rfl⟩ | ⟨-, e, -, -, rfl⟩
  · exact Naming.noSlash_of_isIdentifier ((hnames e he).implementation hi)
  · exact Naming.noSlash_of_isIdentifier (hnames e he).metadata
  · show '/' ∉ "Models".toList
    decide

theorem fileName_eq_iff {a b : Artifact} (ha : a ∈ g.artifacts o) (hb : b ∈ g.artifacts o) :
    a.fileName = b.fileName ↔
      SameDirectory a.packageName b.packageName ∧ a.baseName = b.baseName := by
  rw [Artifact.fileName_eq ha, Artifact.fileName_eq hb,
    packageFile_eq_iff (noSlash_baseName hnames ha) (noSlash_baseName hnames hb)]

theorem FilesApart.eq_of_fileName_eq (h : g.FilesApart o.generateModel) {a b : Artifact}
    (ha : a ∈ g.artifacts o) (hb : b ∈ g.artifacts o) (hfile : a.fileName = b.fileName) :
    a = b := by
  obtain ⟨hdir, hclass⟩ := (fileName_eq_iff hnames ha hb).1 hfile
  rcases mem_artifacts_cases ha with
    ⟨e, he, hi, rfl⟩ | ⟨e, he, rfl⟩ | ⟨hm, e, he, hk, rfl⟩ <;>
  rcases mem_artifacts_cases hb with
    ⟨e', he', hi', rfl⟩ | ⟨e', he', rfl⟩ | ⟨hm', e', he', hk', rfl⟩
  · rw [h.implementations e he e' he' hi hi' hdir hclass]
  · exact absurd hclass (h.implementation e he e' he' hi hdir)
  · exact absurd hclass (h.registry hm' e he hi)
  · exact absurd hclass.symm (h.implementation e' he' e he hi' hdir.symm)
  · rw [h.metadata e he e' he' hdir hclass]
  · exact absurd hclass (metadataClass_ne_models e)
  · exact absurd hclass.symm (h.registry hm e' he' hi')
  · exact absurd hclass.symm (metadataClass_ne_models e')
  · have hpackage : e.packageName = e'.packageName := h.registries hm e he e' he' hk hk' hdir
    rw [hpackage]

theorem filesApart_of_injective (hg : g.IsKeyed)
    (h : ∀ a ∈ g.artifacts o, ∀ b ∈ g.artifacts o, a.fileName = b.fileName → a = b) :
    g.FilesApart o.generateModel := by
  have heq {a b : Artifact} (ha : a ∈ g.artifacts o) (hb : b ∈ g.artifacts o)
      (hdir : SameDirectory a.packageName b.packageName) (hbase : a.baseName = b.baseName) :
      a = b := h a ha b hb ((fileName_eq_iff hnames ha hb).2 ⟨hdir, hbase⟩)
  have hmetadata {e : Entity} (he : e ∈ g.nodes) : .metadata (metadata g o e) ∈ g.artifacts o :=
    metadata_mem_artifacts_iff.2 ⟨e, he, rfl⟩
  have himplementation {e : Entity} (he : e ∈ g.nodes) (hi : e.hasImplementation = true) :
      .implementation (implementation o e) ∈ g.artifacts o :=
    implementation_mem_artifacts_iff.2 ⟨e, he, hi, rfl⟩
  have hregistry {e : Entity} (hm : o.generateModel = true) (he : e ∈ g.nodes)
      (hk : e.kind = .entity) : .registry (packageRegistry g o e.packageName) ∈ g.artifacts o :=
    registry_mem_artifacts_iff.2 ⟨hm, e, he, hk, rfl⟩
  constructor
  · intro e he e' he' hdir hclass
    have hsame := heq (hmetadata he) (hmetadata he') hdir hclass
    exact hg.node_eq he he' (congrArg MetadataArtifact.entity (Artifact.metadata.inj hsame))
  · intro e he e' he' hi hi' hdir hclass
    have hsame := heq (himplementation he hi) (himplementation he' hi') hdir hclass
    exact hg.node_eq he he'
      (congrArg ImplementationArtifact.entity (Artifact.implementation.inj hsame))
  · intro e he e' he' hi hdir hclass
    cases heq (himplementation he hi) (hmetadata he') hdir hclass
  · intro hm e he e' he' hk hk' hdir
    have hsame := heq (hregistry hm he hk) (hregistry hm he' hk') hdir rfl
    exact congrArg RegistryArtifact.packageName (Artifact.registry.inj hsame)
  · intro hm e he hi hclass
    have hk := kind_eq_of_hasImplementation hi
    cases heq (himplementation he hi) (hregistry hm he hk) (.refl _) hclass

/-- The file names of a graph are distinct exactly when its files are apart. -/
theorem nodup_fileNames_iff (hg : g.IsKeyed) :
    ((g.artifacts o).map Artifact.fileName).Nodup ↔ g.FilesApart o.generateModel := by
  rw [List.nodup_map_iff_inj_on (hg.nodup_artifacts o)]
  constructor
  · exact filesApart_of_injective hnames hg
  · intro h a ha b hb
    exact h.eq_of_fileName_eq hnames ha hb

end Names

/-- Names that are not given never collide. -/
theorem filesApart_of_defaults (hg : g.IsKeyed) (h : ∀ e ∈ g.nodes, e.HasDefaultNames)
    (generateModel : Bool) : g.FilesApart generateModel := by
  have hpackage {e e' : Entity} (he : e ∈ g.nodes) (he' : e' ∈ g.nodes)
      (hdir : SameDirectory e.packageName e'.packageName) : e.packageName = e'.packageName :=
    (sameDirectory_iff_eq (h e he).package (h e' he').package).1 hdir
  have hsame {e e' : Entity} (he : e ∈ g.nodes) (he' : e' ∈ g.nodes)
      (hdir : SameDirectory e.packageName e'.packageName) (hsimple : e.simpleName = e'.simpleName) :
      e = e' := by
    refine hg.node_eq he he' ?_
    rw [(h e he).qualifiedName, (h e' he').qualifiedName, hpackage he he' hdir, hsimple]
  constructor
  · intro e he e' he' hdir hmetadata
    exact hsame he he' hdir (metadataClass_inj.1 hmetadata)
  · intro e he e' he' _ _ hdir himplementation
    rw [(h e he).implementationClass_eq, (h e' he').implementationClass_eq] at himplementation
    exact hsame he he' hdir ((String.append_right_inj _).1 himplementation)
  · intro e he e' he' _ _
    exact (h e he).implementationClass_ne_metadataClass e'
  · intro _ e he e' he' _ _ hdir
    exact hpackage he he' hdir
  · intro _ e he _ hmodels
    rw [← String.toList_inj, (h e he).implementationClass_eq, String.toList_append] at hmodels
    cases hmodels

end Graph

end Metamodel
