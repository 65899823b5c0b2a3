import Mathlib.Data.List.Perm.Basic
import Metamodel.Proofs.Artifact.Derivation
import Metamodel.Proofs.Run.Agreement
import Metamodel.Proofs.Run.Inheritance

/-!
# The order of the declarations

A run over declarations with distinct names gives the same graph, the same findings and the same
artifacts in whatever order the declarations come (`process_perm`): no build sees what has been
built of its own kind, and nothing that is written keeps the order of the nodes.
-/

namespace Metamodel.Run

section

variable {s s' : DeclarationSource} (hperm : s.declarations.Perm s'.declarations)
  (hnames : (s.declarations.filterMap Declaration.knownName?).Nodup)
  (hcatalog : s.catalog = s'.catalog)

include hperm hnames hcatalog

theorem candidates_perm (marker : AnnotationKind) :
    (candidates s marker).Perm (candidates s' marker) := by
  have hnames' : (s'.declarations.filterMap Declaration.knownName?).Nodup :=
    (hperm.filterMap _).nodup_iff.1 hnames
  rw [candidates_eq_filter hnames, candidates_eq_filter hnames']
  unfold DeclarationSource.typeMarks
  rw [hcatalog]
  exact hperm.filter _

theorem agree_of_perm (hmembers : s.members = s'.members) : Agree s s' where
  catalog := hcatalog
  members := hmembers
  names := hnames
  headings := hperm.filterMap _
  buildable kind := by
    have hobstacle : s.obstacle? kind = s'.obstacle? kind := by
      unfold DeclarationSource.obstacle? DeclarationSource.typeMarks
      rw [hcatalog, hmembers]
    unfold buildable
    rw [hobstacle]
    exact (candidates_perm hperm hnames hcatalog _).filter _

/-- The findings of a run differ in their order only. -/
theorem diagnostics_perm (hmembers : s.members = s'.members) (config : Config) (outDir : String) :
    (process s config outDir).diagnostics.Perm (process s' config outDir).diagnostics := by
  have hagree := agree_of_perm hperm hnames hcatalog hmembers
  have hbuild : (build s config).diagnostics.Perm (build s' config).diagnostics := by
    rw [diagnostics_build, diagnostics_build]
    refine List.Perm.flatMap_left _ fun kind _ => ?_
    rw [hagree.findings_eq config kind]
    exact (candidates_perm hperm hnames hcatalog kind.marker).flatMap_right _
  exact hbuild.append (hagree.graph_sameContents config outDir).validate_perm

theorem emitted_perm (hmembers : s.members = s'.members) (config : Config) (outDir : String) :
    (process s config outDir).emitted = (process s' config outDir).emitted := by
  have herrors : Diagnostic.hasErrors (process s config outDir).diagnostics =
      Diagnostic.hasErrors (process s' config outDir).diagnostics :=
    (diagnostics_perm hperm hnames hcatalog hmembers config outDir).any_eq
  exact congrArg (fun b => config.generateAlways || !b) herrors

end

/-- The order in which declarations with distinct names come does not show in what a run gives:
the text of the graph, whether artifacts are made, and, up to the order in which they are listed,
the artifacts. -/
theorem process_perm {ds ds' : List Declaration} (catalog : Catalog) (config : Config)
    (outDir : String) (hperm : ds.Perm ds')
    (hnames : (ds.filterMap Declaration.knownName?).Nodup) :
    let run := process (.ofDeclarations ds catalog) config outDir
    let run' := process (.ofDeclarations ds' catalog) config outDir
    run.graph.serialize = run'.graph.serialize ∧ run.emitted = run'.emitted ∧
      run.artifacts.Perm run'.artifacts := by
  have hsources : (DeclarationSource.ofDeclarations ds catalog).declarations.Perm
      (DeclarationSource.ofDeclarations ds' catalog).declarations := hperm
  have hagree := agree_of_perm hsources hnames rfl rfl
  have hgraph := hagree.graph_sameContents config outDir
  have hkeyed := isKeyed_graph_process (.ofDeclarations ds catalog) config outDir
  have hemitted := emitted_perm hsources hnames rfl rfl config outDir
  refine ⟨hgraph.serialize_eq hkeyed, hemitted, ?_⟩
  rw [artifacts_process, artifacts_process, hemitted]
  split
  · exact hgraph.artifacts_perm hkeyed _
  · exact List.Perm.nil

/-- Two orderings give the nodes in different places, and yet the same text and artifacts. -/
theorem process_sample_reverse :
    let ds := Sample.item :: Sample.declarations
    let run := process (.ofDeclarations ds (.create true)) .default "gen"
    let run' := process (.ofDeclarations ds.reverse (.create true)) .default "gen"
    run.graph.nodes.map (·.simpleName) = ["Item", "Order", "Base", "Audited"] ∧
      run'.graph.nodes.map (·.simpleName) = ["Order", "Item", "Base", "Audited"] ∧
      run.graph.serialize = run'.graph.serialize ∧ run.emitted = run'.emitted ∧
      run.artifacts.Perm run'.artifacts := by
  refine ⟨by decide +kernel, by decide +kernel, ?_⟩
  exact process_perm (.create true) .default "gen" (List.reverse_perm _).symm (by decide +kernel)

end Metamodel.Run
