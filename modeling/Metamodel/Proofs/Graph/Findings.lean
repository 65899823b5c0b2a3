import Metamodel.Graph.Validation

/-!
# Findings by code

Each check of a graph reports under a code of its own, so that the findings of some codes are those
of the checks that report them (`filter_nodeFindings`), node by node (`filter_validate`).
-/

namespace Metamodel.Graph

/-! ## Codes -/

theorem eq_of_mem_ite {α : Type} {c : Prop} [Decidable c] {x y : α}
    (h : y ∈ if c then [x] else []) : y = x := by
  by_cases hc : c
  · rw [if_pos hc] at h
    exact List.mem_singleton.1 h
  · rw [if_neg hc] at h
    cases h

section Codes

variable {g : Graph} {e : Entity} {f : Diagnostic}

theorem code_of_mem_missingKey (h : f ∈ missingKey e) : f.code = .missingKey := by
  rw [eq_of_mem_ite h]
  rfl

theorem code_of_mem_multipleVersion (h : f ∈ multipleVersion e) : f.code = .multipleVersion := by
  rw [eq_of_mem_ite h]
  rfl

theorem code_of_mem_toManyNotCollection (h : f ∈ g.toManyNotCollection e) :
    f.code = .toManyNotCollection := by
  obtain ⟨p, -, rfl⟩ := List.mem_map.1 h
  rfl

theorem code_of_mem_emptyEntity (h : f ∈ emptyEntity e) : f.code = .emptyEntity := by
  rw [eq_of_mem_ite h]
  rfl

theorem code_of_mem_loneGeneratedKey (h : f ∈ loneGeneratedKey e) : f.code = .loneGeneratedKey := by
  unfold loneGeneratedKey at h
  split at h
  · rw [eq_of_mem_ite h]
  · cases h

theorem code_of_mem_reservedTableName (h : f ∈ reservedTableName e) :
    f.code = .reservedTableName := by
  rw [eq_of_mem_ite h]
  rfl

theorem code_of_mem_danglingRelationship {edge : Edge} (h : f ∈ g.danglingRelationship edge) :
    f.code = .danglingRelationship := by
  by_cases hnodes : g.hasNode edge.source.qualifiedName && g.hasNode edge.target.qualifiedName
  · rw [danglingRelationship, if_pos hnodes] at h
    cases h
  · rw [danglingRelationship, if_neg hnodes] at h
    rw [List.mem_singleton.1 h]

/-- The codes of the findings about single nodes. -/
def nodeCodes : List DiagnosticCode :=
  [.missingKey, .multipleVersion, .toManyNotCollection, .emptyEntity, .loneGeneratedKey,
    .reservedTableName]

theorem code_mem_of_mem_nodeFindings (h : f ∈ g.nodeFindings e) : f.code ∈ nodeCodes := by
  simp only [nodeFindings, List.mem_append] at h
  rcases h with ((((h | h) | h) | h) | h) | h
  · simp [code_of_mem_missingKey h, nodeCodes]
  · simp [code_of_mem_multipleVersion h, nodeCodes]
  · simp [code_of_mem_toManyNotCollection h, nodeCodes]
  · simp [code_of_mem_emptyEntity h, nodeCodes]
  · simp [code_of_mem_loneGeneratedKey h, nodeCodes]
  · simp [code_of_mem_reservedTableName h, nodeCodes]

/-- The findings about single nodes are not about edges. -/
theorem code_nodeFindings_ne (h : f ∈ g.nodeFindings e) : f.code ≠ .danglingRelationship := by
  have hne : ∀ code ∈ nodeCodes, code ≠ .danglingRelationship := by decide
  exact hne f.code (code_mem_of_mem_nodeFindings h)

end Codes

/-! ## Findings of some codes -/

theorem filter_of_code {fs : List Diagnostic} {code : DiagnosticCode}
    (h : ∀ {f}, f ∈ fs → f.code = code) (keep : DiagnosticCode → Bool) :
    fs.filter (fun f => keep f.code) = if keep code then fs else [] := by
  cases hkeep : keep code with
  | true =>
    refine List.filter_eq_self.2 fun f hf => ?_
    rw [h hf, hkeep]
  | false =>
    refine List.filter_eq_nil_iff.2 fun f hf => ?_
    rw [h hf, hkeep]
    exact Bool.false_ne_true

theorem filter_code {fs : List Diagnostic} {code : DiagnosticCode} (h : ∀ {f}, f ∈ fs → f.code = code)
    (codes : List DiagnosticCode) :
    fs.filter (·.code ∈ codes) = if code ∈ codes then fs else [] := by
  rw [filter_of_code h fun code => decide (code ∈ codes)]
  simp only [decide_eq_true_eq]

theorem filter_nodeFindings (g : Graph) (e : Entity) (codes : List DiagnosticCode) :
    (g.nodeFindings e).filter (·.code ∈ codes) =
      (if .missingKey ∈ codes then missingKey e else []) ++
      (if .multipleVersion ∈ codes then multipleVersion e else []) ++
      (if .toManyNotCollection ∈ codes then g.toManyNotCollection e else []) ++
      (if .emptyEntity ∈ codes then emptyEntity e else []) ++
      (if .loneGeneratedKey ∈ codes then loneGeneratedKey e else []) ++
      (if .reservedTableName ∈ codes then reservedTableName e else []) := by
  unfold nodeFindings
  simp only [List.filter_append]
  rw [filter_code code_of_mem_missingKey, filter_code code_of_mem_multipleVersion,
    filter_code code_of_mem_toManyNotCollection, filter_code code_of_mem_emptyEntity,
    filter_code code_of_mem_loneGeneratedKey, filter_code code_of_mem_reservedTableName]

/-- The findings of a graph that are not about edges are those about its nodes. -/
theorem filter_validate (g : Graph) {codes : List DiagnosticCode}
    (h : .danglingRelationship ∉ codes) :
    g.validate.filter (·.code ∈ codes) =
      g.nodes.flatMap fun e => (g.nodeFindings e).filter (·.code ∈ codes) := by
  have hdangling (edge : Edge) : (g.danglingRelationship edge).filter (·.code ∈ codes) = [] :=
    (filter_code code_of_mem_danglingRelationship codes).trans (if_neg h)
  unfold validate
  rw [List.filter_append, List.filter_flatMap, List.filter_flatMap]
  simp only [hdangling]
  simp

end Metamodel.Graph
