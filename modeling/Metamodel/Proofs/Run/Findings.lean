import Metamodel.Proofs.Graph.Assembly
import Metamodel.Proofs.Run.Agreement

/-!
# Findings of a run

What is found while types are built has codes of its own (`buildCodes`), none of which the graph is
reported with. So the findings of a run with other codes are those about its graph
(`filter_diagnostics_process`), and all of these are about nodes (`validate_process`). What is found
about a type that is built is never the reason for which another one is not (`isFatal_of_buildEntity`).
-/

namespace Metamodel

/-- The codes of what is found while types are built. -/
def buildCodes : List DiagnosticCode :=
  [.missingQualifiedName, .unresolvedAnnotationReference, .internalError, .unresolvedType,
    .multipleCardinality, .duplicateMember, .invalidEntityName]

/-- The codes of what is found about a declaration that is built. -/
def remarkCodes : List DiagnosticCode :=
  [.unresolvedType, .multipleCardinality, .duplicateMember, .invalidEntityName]

/-! ## Members -/

theorem code_mem_of_mem_keptFindings {catalog : Catalog} {owner : String}
    {location : Option Location} {m : Member} {p : Property} {f : Diagnostic}
    (hf : f ∈ keptFindings catalog owner location m p) : f.code ∈ remarkCodes := by
  rcases List.mem_append.1 hf with hf | hf
  · rw [Graph.eq_of_mem_ite hf]
    simp [remarkCodes]
  · rw [Graph.eq_of_mem_ite hf]
    simp [remarkCodes]

/-- One more member adds nothing but findings of a build. -/
theorem code_mem_of_mem_addMember {catalog : Catalog} {owner : Owner} {location : Option Location}
    {acc : List Property × List Diagnostic} {m : Member} (hacc : ∀ f ∈ acc.2, f.code ∈ remarkCodes) :
    ∀ f ∈ (addMember catalog owner location acc m).2, f.code ∈ remarkCodes := by
  intro f hf
  unfold addMember at hf
  split at hf
  · exact hacc f hf
  · split at hf
    · rcases List.mem_append.1 hf with hf | hf
      · exact hacc f hf
      · rw [List.mem_singleton.1 hf]
        simp [droppedFinding, remarkCodes]
    · rcases List.mem_append.1 hf with hf | hf
      · exact hacc f hf
      · exact code_mem_of_mem_keptFindings hf

theorem code_mem_of_mem_ownProperties {catalog : Catalog} {owner : Owner}
    {location : Option Location} {members : List Member} :
    ∀ f ∈ (ownProperties catalog owner location members).2, f.code ∈ remarkCodes := by
  have hfold (acc : List Property × List Diagnostic) (hacc : ∀ f ∈ acc.2, f.code ∈ remarkCodes) :
      ∀ f ∈ (members.foldl (addMember catalog owner location) acc).2, f.code ∈ remarkCodes := by
    induction members generalizing acc with
    | nil => exact hacc
    | cons m members ih => exact ih _ (code_mem_of_mem_addMember hacc)
  exact hfold _ (by simp)

/-! ## Declarations -/

theorem code_mem_of_buildEntity {c : Context} {kind : EntityKind} {d : Declaration} {b : Built}
    (h : buildEntity c d kind = .ok b) : ∀ f ∈ b.diagnostics, f.code ∈ remarkCodes := by
  cases ho : c.source.obstacle? kind d with
  | some e =>
    rw [buildEntity_of_obstacle ho] at h
    cases h
  | none =>
    obtain ⟨name, members, hname, href, hmem⟩ := DeclarationSource.of_obstacle_eq_none ho
    unfold buildEntity at h
    simp only [hname, href, hmem, Except.mapError, bind, Except.bind] at h
    cases h
    intro f hf
    rcases List.mem_append.1 hf with hf | hf
    · rcases List.mem_append.1 hf with hf | hf
      · obtain ⟨n, -, rfl⟩ := List.mem_map.1 hf
        simp [remarkCodes]
      · exact code_mem_of_mem_ownProperties f hf
    · by_cases hkind : (kind == EntityKind.entity) = true
      · rw [if_pos hkind] at hf
        obtain ⟨supertype, -, rfl⟩ := List.mem_map.1 hf
        simp [unresolvedSupertype, remarkCodes]
      · rw [if_neg hkind] at hf
        cases hf

theorem isFatal_of_buildEntity {c : Context} {kind : EntityKind} {d : Declaration} {b : Built}
    (h : buildEntity c d kind = .ok b) : ∀ f ∈ b.diagnostics, f.code.isFatal = false := by
  have hremark : ∀ code ∈ remarkCodes, code.isFatal = false := by decide
  intro f hf
  exact hremark f.code (code_mem_of_buildEntity h f hf)

namespace Run

theorem code_rejection_mem (d : Declaration) (e : BuildError) :
    (rejection d e).code ∈ buildCodes := by
  cases e <;> simp [rejection, BuildError.diagnostic?, buildCodes]

theorem code_mem_of_mem_findings {c : Context} {kind : EntityKind} {d : Declaration}
    {f : Diagnostic} (hf : f ∈ findings c kind d) : f.code ∈ buildCodes := by
  unfold findings at hf
  cases hb : buildEntity c d kind with
  | error e =>
    rw [hb] at hf
    rw [List.mem_singleton.1 hf]
    exact code_rejection_mem d e
  | ok b =>
    have hremark : remarkCodes ⊆ buildCodes := by decide
    rw [hb] at hf
    exact hremark (code_mem_of_buildEntity hb f hf)

variable {s : DeclarationSource} {config : Config} {outDir : String}

theorem code_mem_of_mem_diagnostics_build {f : Diagnostic}
    (hf : f ∈ (build s config).diagnostics) : f.code ∈ buildCodes := by
  rw [diagnostics_build] at hf
  obtain ⟨kind, -, hf⟩ := List.mem_flatMap.1 hf
  obtain ⟨d, -, hf⟩ := List.mem_flatMap.1 hf
  exact code_mem_of_mem_findings hf

/-- The findings of a run with codes that no build has are those about its graph. -/
theorem filter_diagnostics_process {codes : List DiagnosticCode}
    (h : ∀ code ∈ codes, code ∉ buildCodes) :
    (process s config outDir).diagnostics.filter (·.code ∈ codes) =
      (process s config outDir).graph.validate.filter (·.code ∈ codes) := by
  have hbuild : (build s config).diagnostics.filter (·.code ∈ codes) = [] := by
    rw [List.filter_eq_nil_iff]
    intro f hf hcode
    exact h f.code (of_decide_eq_true hcode) (code_mem_of_mem_diagnostics_build hf)
  rw [diagnostics_process, List.filter_append, hbuild, List.nil_append]

/-- No edge of a run dangles, so that all findings about its graph are about nodes. -/
theorem validate_process (s : DeclarationSource) (config : Config) (outDir : String) :
    (process s config outDir).graph.validate =
      (process s config outDir).graph.nodes.flatMap (process s config outDir).graph.nodeFindings := by
  have hedges : (process s config outDir).graph.edges.flatMap
      (process s config outDir).graph.danglingRelationship = [] := by
    refine List.flatMap_eq_nil_iff.2 fun edge hedge => ?_
    rw [graph_process] at hedge ⊢
    obtain ⟨hsource, -, htarget⟩ := Graph.mem_edges_assemble_iff.1 hedge
    exact Graph.danglingRelationship_eq_nil hsource
      (Graph.mem_nodes_of_targetOf? (nodup_builtOf _) (nodup_builtOf _) htarget)
  unfold Graph.validate
  rw [hedges, List.append_nil]

end Run

end Metamodel
