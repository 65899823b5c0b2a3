import Metamodel.Proofs.Report.Order
import Metamodel.Proofs.Run.Descent
import Metamodel.Proofs.Run.Findings
import Metamodel.Proofs.Run.OrderIndependence
import Metamodel.Proofs.Run.Origin

/-!
# The stages of a run

A run looks at its declarations kind by kind, once to build them (`Stage.building`) and once more to
check the nodes that they became (`Stage.checking`). What it finds is what each declaration gives at
each stage (`diagnostics_eq_blocks`), and that does not depend on the order of the declarations
(`diagnostics_reorder`).
-/

namespace Metamodel

/-- Every declaration has a name, and no other declaration has it. -/
structure DeclarationSource.NamesApart (s : DeclarationSource) : Prop where
  named : ∀ d ∈ s.declarations, d.knownName? ≠ none
  distinct : (s.declarations.filterMap Declaration.knownName?).Nodup

/-- The source with other declarations, or with the same ones in another order. -/
def DeclarationSource.reorder (s : DeclarationSource) (ds : List Declaration) : DeclarationSource :=
  { s with declarations := ds }

/-- The node of a kind that a declaration became. -/
def Graph.nodeOf? (g : Graph) (kind : EntityKind) (d : Declaration) : Option Entity :=
  (d.knownName?.bind g.node?).filter (·.kind == kind)

theorem Graph.nodeOf?_eq_some_iff {g : Graph} (hg : g.IsKeyed) {kind : EntityKind} {d : Declaration}
    {e : Entity} :
    g.nodeOf? kind d = some e ↔
      d.knownName? = some e.qualifiedName ∧ e ∈ g.nodes ∧ e.kind = kind := by
  simp only [nodeOf?, Option.filter_eq_some_iff, Option.bind_eq_some_iff, beq_iff_eq]
  constructor
  · rintro ⟨⟨name, hname, he⟩, hkind⟩
    obtain ⟨hmem, rfl⟩ := (find?_eq_some_iff hg.nodes).1 he
    exact ⟨hname, hmem, hkind⟩
  · rintro ⟨hname, hmem, hkind⟩
    exact ⟨⟨_, hname, (find?_eq_some_iff hg.nodes).2 ⟨hmem, rfl⟩⟩, hkind⟩

/-- A part of a list without repeats is what it takes of the list. -/
theorem eq_filter_of_sublist {α : Type} {xs ys : List α} (h : xs.Sublist ys) (hys : ys.Nodup)
    {keep : α → Bool} (hkeep : ∀ y ∈ ys, keep y = true ↔ y ∈ xs) : xs = ys.filter keep := by
  have hall : xs.filter keep = xs :=
    List.filter_eq_self.2 fun x hx => (hkeep x (h.subset hx)).2 hx
  have hsublist : xs.Sublist (ys.filter keep) := hall ▸ h.filter keep
  refine hsublist.eq_of_length (List.Perm.length_eq ?_)
  rw [List.perm_ext_iff_of_nodup (hys.sublist h) (hys.filter _)]
  intro x
  rw [List.mem_filter]
  exact ⟨fun hx => ⟨h.subset hx, (hkeep x (h.subset hx)).2 hx⟩,
    fun ⟨hy, hx⟩ => (hkeep x hy).1 hx⟩

/-- What is found about some items only. -/
theorem flatMap_filter {α β : Type} (p : α → Bool) (f : α → List β) (xs : List α) :
    (xs.filter p).flatMap f = xs.flatMap fun x => if p x then f x else [] := by
  induction xs with
  | nil => rfl
  | cons x xs ih =>
    rw [List.flatMap_cons, ← ih, List.filter_cons]
    cases p x <;> rfl

namespace Run

/-- When a declaration is looked at. -/
inductive Stage where
  | building (kind : EntityKind)
  | checking (kind : EntityKind)
  deriving DecidableEq

/-- The kinds in the order in which their nodes stand. -/
def nodeKinds : List EntityKind := [.entity, .superclass, .embeddable]

/-- The stages of a run, in order. -/
def stages : List Stage := kinds.map .building ++ nodeKinds.map .checking

/-- What is found about a declaration at a stage. -/
def findingsAt (s : DeclarationSource) (config : Config) (outDir : String) :
    Stage → Declaration → List Diagnostic
  | .building kind, d =>
    if hasMark (s.typeMarks d) kind.marker then findings (build s config).context kind d else []
  | .checking kind, d =>
    ((process s config outDir).graph.nodeOf? kind d).toList.flatMap
      (process s config outDir).graph.nodeFindings

variable {s : DeclarationSource} {config : Config} {outDir : String}

theorem kind_eq_of_mem_builtOf {kind : EntityKind} {e : Entity} (he : e ∈ builtOf s config kind) :
    e.kind = kind := by
  obtain ⟨_, _, b, -, rfl, hb⟩ := isBuilt_of_mem_builtOf he
  exact hb.kind_eq

/-- No type is built twice. -/
theorem nodup_flatMap_builtOf : (nodeKinds.flatMap (builtOf s config)).Nodup := by
  refine List.nodup_flatMap.2 ⟨fun kind _ => (nodup_builtOf kind).of_map _, ?_⟩
  have hkinds : nodeKinds.Pairwise (· ≠ ·) := by decide
  refine hkinds.imp fun hne e he he' => hne ?_
  rw [← kind_eq_of_mem_builtOf he, kind_eq_of_mem_builtOf he']

theorem sublist_nodes_process :
    (process s config outDir).graph.nodes.Sublist (nodeKinds.flatMap (builtOf s config)) := by
  rw [graph_process]
  have hkinds : nodeKinds.flatMap (builtOf s config) =
      builtOf s config .entity ++ builtOf s config .superclass ++ builtOf s config .embeddable := by
    simp [nodeKinds]
  rw [hkinds]
  show (Graph.distinctNodes _).Sublist _
  rw [Graph.distinctNodes_eq]
  exact firstBy_sublist _

/-- A type that is built becomes a node unless its name is that of a node of another kind. -/
theorem any_node?_iff {e : Entity} (he : e ∈ nodeKinds.flatMap (builtOf s config)) :
    ((process s config outDir).graph.node? e.qualifiedName).any (·.kind == e.kind) = true ↔
      e ∈ (process s config outDir).graph.nodes := by
  obtain ⟨kind, -, he⟩ := List.mem_flatMap.1 he
  simp only [Option.any_eq_true, node?_eq_some_iff, beq_iff_eq]
  constructor
  · rintro ⟨node, ⟨hnode, hname⟩, hkind⟩
    have hbuilt := mem_builtOf_kind hnode
    rw [hkind, kind_eq_of_mem_builtOf he] at hbuilt
    rwa [← List.inj_on_of_nodup_map (nodup_builtOf kind) hbuilt he hname]
  · exact fun hnode => ⟨e, ⟨hnode, rfl⟩, rfl⟩

/-- The type that a declaration is built as is its node of that kind, if it becomes one. -/
theorem filter_entity?_eq_nodeOf? (h : s.NamesApart) {kind : EntityKind} (hkind : kind ∈ nodeKinds)
    {d : Declaration} (hd : d ∈ s.declarations) :
    ((if hasMark (s.typeMarks d) kind.marker then entity? (build s config).context kind d
      else none).filter fun e =>
        ((process s config outDir).graph.node? e.qualifiedName).any (·.kind == e.kind)) =
      (process s config outDir).graph.nodeOf? kind d := by
  have hbuilt {d : Declaration} {e : Entity} (hd : d ∈ s.declarations) :
      (if hasMark (s.typeMarks d) kind.marker then entity? (build s config).context kind d
        else none) = some e → e ∈ builtOf s config kind := by
    intro he
    rw [Option.ite_none_right_eq_some] at he
    refine List.mem_filterMap.2 ⟨d, ?_, he.2⟩
    rw [candidates_eq_filter h.distinct]
    exact List.mem_filter.2 ⟨hd, he.1⟩
  ext e
  rw [Option.filter_eq_some_iff, Graph.nodeOf?_eq_some_iff (isKeyed_graph_process s config outDir)]
  constructor
  · rintro ⟨he, hnode⟩
    have hmem := hbuilt hd he
    rw [Option.ite_none_right_eq_some] at he
    exact ⟨knownName?_of_entity? he.2,
      (any_node?_iff (List.mem_flatMap.2 ⟨kind, hkind, hmem⟩)).1 hnode, kind_eq_of_mem_builtOf hmem⟩
  · rintro ⟨hname, hnode, rfl⟩
    have hmem := mem_builtOf_kind hnode
    obtain ⟨d', hd', he⟩ := List.mem_filterMap.1 hmem
    rw [candidates_eq_filter h.distinct] at hd'
    obtain ⟨hd', hmark⟩ := List.mem_filter.1 hd'
    -- the declaration is the only one of its name
    obtain rfl := eq_of_nodup_filterMap h.distinct hd hd' hname (knownName?_of_entity? he)
    exact ⟨by rw [if_pos hmark, he], (any_node?_iff (List.mem_flatMap.2 ⟨_, hkind, hmem⟩)).2 hnode⟩

/-- The nodes of a run, kind by kind in the order of their declarations. -/
theorem nodes_process (h : s.NamesApart) :
    (process s config outDir).graph.nodes = nodeKinds.flatMap fun kind =>
      s.declarations.filterMap ((process s config outDir).graph.nodeOf? kind) := by
  rw [eq_filter_of_sublist sublist_nodes_process nodup_flatMap_builtOf fun e he => any_node?_iff he,
    List.filter_flatMap]
  refine List.flatMap_congr fun kind hkind => ?_
  rw [builtOf, builtIn, candidates_eq_filter h.distinct, List.filterMap_filter,
    List.filter_filterMap]
  exact List.filterMap_congr fun d hd => filter_entity?_eq_nodeOf? h hkind hd

/-- What a run finds is what each declaration gives at each stage. -/
theorem diagnostics_eq_blocks (h : s.NamesApart) :
    (process s config outDir).diagnostics =
      Diagnostic.blocks stages (findingsAt s config outDir) s.declarations := by
  rw [diagnostics_process, diagnostics_build, validate_process]
  simp only [Diagnostic.blocks, stages, List.flatMap_append, List.flatMap_map]
  congr 1
  · refine List.flatMap_congr fun kind _ => ?_
    rw [candidates_eq_filter h.distinct, flatMap_filter]
    rfl
  · rw [nodes_process h, List.flatMap_assoc]
    refine List.flatMap_congr fun kind _ => ?_
    rw [List.filterMap_eq_flatMap_toList, List.flatMap_assoc]
    rfl

section

variable {ds : List Declaration} (h : s.NamesApart) (hds : ds.Perm s.declarations)

include h hds

theorem agree_reorder : Agree s (s.reorder ds) :=
  agree_of_perm hds.symm h.distinct rfl rfl

theorem namesApart_reorder : (s.reorder ds).NamesApart where
  named d hd := h.named d (hds.mem_iff.1 hd)
  distinct := (hds.filterMap _).nodup_iff.2 h.distinct

/-- At each stage the same is found about a declaration in whatever order all of them come. -/
theorem findingsAt_reorder : findingsAt (s.reorder ds) config outDir = findingsAt s config outDir := by
  have hagree := agree_reorder h hds
  have hgraph := hagree.graph_sameContents config outDir
  funext stage d
  cases stage with
  | building kind =>
    simp only [findingsAt]
    rw [← hagree.findings_eq config kind]
    rfl
  | checking kind =>
    simp only [findingsAt, Graph.nodeOf?]
    rw [← hgraph.nodeFindings_eq, funext (hgraph.node?_eq (isKeyed_graph_process s config outDir))]

theorem diagnostics_reorder :
    (process (s.reorder ds) config outDir).diagnostics =
      Diagnostic.blocks stages (findingsAt s config outDir) ds := by
  rw [diagnostics_eq_blocks (namesApart_reorder h hds), findingsAt_reorder h hds]
  rfl

end

end Run

end Metamodel
