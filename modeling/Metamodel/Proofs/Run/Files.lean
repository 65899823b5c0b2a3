import Metamodel.Proofs.Artifact.FileName
import Metamodel.Proofs.Artifact.Linking
import Metamodel.Proofs.Run.Access

/-!
# The files of a run

The nodes of a run are named by their declarations. Where the simple names of these are identifiers,
the imports between the files of a run link up (`names_link_process`), and the file names are
distinct exactly when the files of the graph are apart (`nodup_fileNames_process_iff`). The names
that a run makes up itself never collide (`Graph.filesApart_of_defaults`), but those that are given
to implementations can (`exists_colliding_files`).
-/

namespace Metamodel

theorem Entity.hasClassNames_of {e : Entity} (hsimple : Naming.isIdentifier e.simpleName = true)
    (hentity : ∀ n, e.entityName = some n → Naming.isIdentifier n = true) : e.HasClassNames where
  metadata := Naming.isIdentifier_append hsimple (by decide)
  implementation _ := by
    unfold implementationClass
    cases hname : e.entityName with
    | some n => exact hentity n hname
    | none =>
      refine Naming.isIdentifier_append (by decide) (List.all_eq_true.2 fun c hc => ?_)
      exact Naming.isIdentifierChar_of_mem hsimple hc

namespace Run

variable {s : DeclarationSource} {config : Config} {outDir : String}

theorem exists_names_of_mem_nodes {e : Entity} (he : e ∈ (process s config outDir).graph.nodes) :
    ∃ d ∈ s.declarations, e.packageName = d.packageName ∧ e.simpleName = d.simpleName ∧
      ∀ n, e.entityName = some n → Naming.isIdentifier n = true := by
  obtain ⟨kind, hmem⟩ := exists_kind_of_mem_nodes he
  obtain ⟨d, b, hd, rfl, hb⟩ := exists_buildEntity_of_mem_builtOf hmem
  exact ⟨d, mem_declarations_of_mem_candidates hd, names_of_buildEntity hb⟩

theorem isClosed_graph_process (s : DeclarationSource) (config : Config) (outDir : String) :
    (process s config outDir).graph.IsClosed := by
  rw [graph_process]
  exact Graph.isClosed_assemble (nodup_builtOf .entity) (nodup_builtOf .superclass)

section Identifiers

variable (h : ∀ d ∈ s.declarations, Naming.isIdentifier d.simpleName = true)
include h

theorem hasClassNames_of_mem_nodes :
    ∀ e ∈ (process s config outDir).graph.nodes, e.HasClassNames := by
  intro e he
  obtain ⟨d, hd, -, hsimple, hentity⟩ := exists_names_of_mem_nodes he
  exact Entity.hasClassNames_of (hsimple ▸ h d hd) hentity

/-- The classes that a file of a run names are its own or imported from the files that declare
them. -/
theorem names_link_process {a : Artifact} (ha : a ∈ (process s config outDir).artifacts) {c : String}
    (hc : a.Names c) :
    a.className? = some c ∨ ∃ r, Import.Brings a.imports r ∧ r.name = c ∧
      ∃ b ∈ (process s config outDir).artifacts, a.Links (deriveOptions config outDir) b r := by
  obtain ⟨hemitted, ha⟩ := mem_artifacts_process_iff.1 ha
  refine (Graph.names_link (isKeyed_graph_process s config outDir)
    (isClosed_graph_process s config outDir) (hasClassNames_of_mem_nodes h) ha hc).imp_right ?_
  rintro ⟨r, hr, hname, b, hb, hlinks⟩
  exact ⟨r, hr, hname, b, mem_artifacts_process_iff.2 ⟨hemitted, hb⟩, hlinks⟩

/-- The file names of a run over identifiers are distinct exactly when nothing is written or the
files of its graph are apart. -/
theorem nodup_fileNames_process_iff :
    ((process s config outDir).artifacts.map Artifact.fileName).Nodup ↔
      ((process s config outDir).emitted = true →
        (process s config outDir).graph.FilesApart config.generateModel) := by
  rw [artifacts_process]
  cases (process s config outDir).emitted with
  | false => simp
  | true =>
    rw [if_pos rfl]
    simp only [forall_const]
    exact Graph.nodup_fileNames_iff (hasClassNames_of_mem_nodes h)
      (isKeyed_graph_process s config outDir)

end Identifiers

theorem filesApart_of_order :
    ((Sample.run Sample.declarations).artifacts.map Artifact.fileName).Nodup ∧
      (Sample.run Sample.declarations).graph.FilesApart true := by
  have hids : ∀ d ∈ Sample.declarations, Naming.isIdentifier d.simpleName = true := by decide
  have hdistinct : ((Sample.run Sample.declarations).artifacts.map Artifact.fileName).Nodup := by
    decide +kernel
  exact ⟨hdistinct, (nodup_fileNames_process_iff hids).1 hdistinct rfl⟩

end Run

namespace Sample

/-- An entity whose implementation is to have the name of a registry. -/
def catalogue : Declaration :=
  { type .class "Catalogue" [] [] [field "id" ["Key"]] with
    annotations := some [⟨"Entity", some [("name", .string "Models")]⟩] }

end Sample

/-- An implementation with the name of the registry goes to the same file. -/
theorem exists_colliding_files :
    ∃ ds : List Declaration, (∀ d ∈ ds, Naming.isIdentifier d.simpleName = true ∧
        d.qualifiedName = some (qualify d.packageName d.simpleName)) ∧
      (ds.map (·.qualifiedName)).Nodup ∧
      (Sample.run ds).artifacts.map Artifact.fileName =
        ["shop/Models.ts", "shop/Catalogue_.ts", "shop/Models.ts"] ∧
      ¬ ((Sample.run ds).artifacts.map Artifact.fileName).Nodup := by
  refine ⟨[Sample.catalogue], by decide, by decide, ?_⟩
  have hfiles : (Sample.run [Sample.catalogue]).artifacts.map Artifact.fileName =
      ["shop/Models.ts", "shop/Catalogue_.ts", "shop/Models.ts"] := by decide +kernel
  refine ⟨hfiles, ?_⟩
  rw [hfiles]
  decide

end Metamodel
