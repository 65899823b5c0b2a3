import Metamodel.Proofs.Report.Text
import Metamodel.Proofs.Run.Messages
import Metamodel.Proofs.Run.Stages

/-!
# Reports and the order of the declarations

The reports of two orders of the same declarations can differ in one thing: in the order of findings
that stand at one place. They never do exactly when no two declarations have findings of one place at
one stage (`serialize_reorder_iff`). Since messages tell what they are about, only the warning about a
reserved table name can be given of two types at one place (`findingsApart_iff`).
-/

namespace Metamodel

/-- The report of a run, written on a report that has counted nothing. -/
def RunResult.report (run : RunResult) (given : Report) : Report :=
  given.withoutCounts.record run.graph run.diagnostics run.invalid run.emitted

/-- No two types of a kind have the same reserved word as the name of their table and the same text
for their location. -/
def Graph.TablesApart (g : Graph) : Prop :=
  ∀ e ∈ g.nodes, ∀ e' ∈ g.nodes, e.kind = e'.kind → isReservedName e.tableName = true →
    e.tableName = e'.tableName →
    (e.source.map Location.text).getD "" = (e'.source.map Location.text).getD "" → e = e'

namespace Run

/-- At no stage do two declarations have findings of one place. -/
def FindingsApart (s : DeclarationSource) (config : Config) (outDir : String) : Prop :=
  Diagnostic.Apart stages (findingsAt s config outDir) s.declarations

variable {s : DeclarationSource} {config : Config} {outDir : String}

/-! ## What findings are about -/

theorem mem_findingsAt_checking {kind : EntityKind} {d : Declaration} {f : Diagnostic} :
    f ∈ findingsAt s config outDir (.checking kind) d ↔
      ∃ e ∈ (process s config outDir).graph.nodes, d.knownName? = some e.qualifiedName ∧
        e.kind = kind ∧ f ∈ (process s config outDir).graph.nodeFindings e := by
  simp only [findingsAt, List.mem_flatMap, Option.mem_toList,
    Graph.nodeOf?_eq_some_iff (isKeyed_graph_process s config outDir)]
  exact exists_congr fun e => by tauto

theorem mem_findings_of_building {kind : EntityKind} {d : Declaration} {f : Diagnostic}
    (hf : f ∈ findingsAt s config outDir (.building kind) d) :
    f ∈ findings (build s config).context kind d := by
  rw [findingsAt] at hf
  split at hf
  · exact hf
  · cases hf

/-- At every stage findings are about the declaration they were made for. -/
theorem entity_eq_of_mem_findingsAt {stage : Stage} {d : Declaration} {name : String}
    (hname : d.knownName? = some name) {f : Diagnostic}
    (hf : f ∈ findingsAt s config outDir stage d) : f.entity = some name := by
  cases stage with
  | building kind =>
    exact (buildFinding_of_mem_findings hname (mem_findings_of_building hf)).entity_eq
  | checking kind =>
    obtain ⟨e, -, he, -, hf⟩ := mem_findingsAt_checking.1 hf
    rw [(nodeFinding_of_mem_nodeFindings hf).entity_eq, ← he, hname]

theorem entity_ne_none_of_mem (h : s.NamesApart) {f : Diagnostic}
    (hf : f ∈ (process s config outDir).diagnostics) : f.entity ≠ none := by
  rw [diagnostics_eq_blocks h] at hf
  obtain ⟨stage, -, hf⟩ := List.mem_flatMap.1 hf
  obtain ⟨d, hd, hf⟩ := List.mem_flatMap.1 hf
  obtain ⟨name, hname⟩ := Option.ne_none_iff_exists'.1 (h.named d hd)
  rw [entity_eq_of_mem_findingsAt hname hf]
  exact Option.some_ne_none name

/-- Reports with the same text have findings about the same types in the same order. -/
theorem map_entity_of_report_eq {s' : DeclarationSource} (h : s.NamesApart) (h' : s'.NamesApart)
    {given : Report} (htext : ((process s config outDir).report given).serialize =
      ((process s' config outDir).report given).serialize) :
    (Diagnostic.sorted (process s config outDir).diagnostics).map Diagnostic.entity =
      (Diagnostic.sorted (process s' config outDir).diagnostics).map Diagnostic.entity := by
  refine Report.map_entity_of_serialize_eq (Report.isNamed_record _ _ _ _ _)
    (Report.isNamed_record _ _ _ _ _) (fun f hf => ?_) (fun f hf => ?_) htext
  · exact entity_ne_none_of_mem h (List.mem_mergeSort.1 hf)
  · exact entity_ne_none_of_mem h' (List.mem_mergeSort.1 hf)

/-! ## The order of the declarations -/

section

variable {ds : List Declaration} (h : s.NamesApart) (hds : ds.Perm s.declarations)

include h hds

theorem diagnostics_reorder_perm :
    (process (s.reorder ds) config outDir).diagnostics.Perm
      (process s config outDir).diagnostics := by
  rw [diagnostics_reorder h hds, diagnostics_eq_blocks h]
  exact Diagnostic.blocks_perm hds

theorem invalid_reorder_perm :
    (process (s.reorder ds) config outDir).invalid.Perm (process s config outDir).invalid := by
  rw [invalid_process, invalid_process, invalid_build, invalid_build]
  have hsources : s.declarations.Perm (s.reorder ds).declarations := hds.symm
  refine List.Perm.flatMap_left _ fun kind _ => ?_
  exact (candidates_perm hsources h.distinct rfl kind.marker).symm.flatMap_right _

/-- The order of the declarations shows in a report only in the order of its findings. -/
theorem serialize_reorder (given : Report) (listed : List Diagnostic) :
    { (process (s.reorder ds) config outDir).report given with diagnostics := listed }.serialize =
      { (process s config outDir).report given with diagnostics := listed }.serialize := by
  have hsources : s.declarations.Perm (s.reorder ds).declarations := hds.symm
  have hemitted := emitted_perm hsources h.distinct rfl rfl config outDir
  unfold RunResult.report
  rw [← hemitted]
  exact given.serialize_record_perm ((agree_reorder h hds).graph_sameContents config outDir)
    (diagnostics_reorder_perm h hds).symm (invalid_reorder_perm h hds).symm _ listed

end

/-- All orders of the declarations give the same report if and only if the findings are apart. -/
theorem serialize_reorder_iff (h : s.NamesApart) (given : Report) :
    (∀ ds, ds.Perm s.declarations →
      ((process (s.reorder ds) config outDir).report given).serialize =
        ((process s config outDir).report given).serialize) ↔ FindingsApart s config outDir := by
  constructor
  · intro htexts
    refine Diagnostic.apart_of_labels (fun stage _ d hd d' hd' f hf f' hf'
      (hentity : f.entity = f'.entity) => ?_) fun ds hds => ?_
    · obtain ⟨name, hname⟩ := Option.ne_none_iff_exists'.1 (h.named d hd)
      obtain ⟨name', hname'⟩ := Option.ne_none_iff_exists'.1 (h.named d' hd')
      rw [entity_eq_of_mem_findingsAt hname hf, entity_eq_of_mem_findingsAt hname' hf', ← hname']
        at hentity
      exact eq_of_nodup_filterMap h.distinct hd hd' hname hentity.symm
    · rw [← diagnostics_reorder h hds, ← diagnostics_eq_blocks h]
      exact map_entity_of_report_eq (namesApart_reorder h hds) h (htexts ds hds)
  · intro hapart ds hds
    have hsorted : Diagnostic.sorted (process (s.reorder ds) config outDir).diagnostics =
        Diagnostic.sorted (process s config outDir).diagnostics := by
      rw [diagnostics_reorder h hds, diagnostics_eq_blocks h]
      exact (Diagnostic.sorted_blocks_eq hapart hds.symm).symm
    have hreport : { (process (s.reorder ds) config outDir).report given with
        diagnostics := Diagnostic.sorted (process s config outDir).diagnostics } =
        (process (s.reorder ds) config outDir).report given := by
      rw [← hsorted]
      rfl
    rw [← hreport]
    exact serialize_reorder h hds given _

/-! ## Messages -/

/-- Codes of findings of a run are told apart by their texts. -/
theorem code_eq_of_text_eq {a b : DiagnosticCode} (ha : a ∈ buildCodes ++ Graph.nodeCodes)
    (hb : b ∈ buildCodes ++ Graph.nodeCodes) (h : a.text = b.text) : a = b := by
  have hall : ∀ a ∈ buildCodes ++ Graph.nodeCodes, ∀ b ∈ buildCodes ++ Graph.nodeCodes,
      a.text = b.text → a = b := by decide
  exact hall a ha b hb h

theorem code_mem_of_mem_findingsAt {stage : Stage} {d : Declaration} {f : Diagnostic}
    (hf : f ∈ findingsAt s config outDir stage d) : f.code ∈ buildCodes ++ Graph.nodeCodes := by
  cases stage with
  | building kind =>
    exact List.mem_append_left _ (code_mem_of_mem_findings (mem_findings_of_building hf))
  | checking kind =>
    obtain ⟨e, -, -, -, hf⟩ := mem_findingsAt_checking.1 hf
    exact List.mem_append_right _ (Graph.code_mem_of_mem_nodeFindings hf)

/-- Where names hold no blanks, a message tells the declaration that it is about, unless it is about
the name of a table. -/
theorem subject_of_mem_findingsAt (hs : s.IsPlain) {stage : Stage} {d : Declaration}
    (hd : d ∈ s.declarations) {name : String} (hname : d.knownName? = some name) {f : Diagnostic}
    (hf : f ∈ findingsAt s config outDir stage d) (hcode : f.code ≠ .reservedTableName) :
    subject? f.code (wordsOf f.message) = some name.toList := by
  cases stage with
  | building kind =>
    exact subject_of_buildFinding hs hd hname
      (buildFinding_of_mem_findings hname (mem_findings_of_building hf))
  | checking kind =>
    obtain ⟨e, he, hown, -, hf⟩ := mem_findingsAt_checking.1 hf
    obtain rfl := Option.some.inj (hname.symm.trans hown)
    refine subject_of_nodeFinding (hs.names d hd _ hname) (fun p hp => ?_)
      (nodeFinding_of_mem_nodeFindings hf) hcode
    obtain ⟨hp, d', hd', hmember⟩ := exists_hasMember_of_property (mem_builtOf_kind he) hp
    exact (notMem_of_isIdentifier (hp.isIdentifier_name (hs.members d' hd' _ hmember))).1

/-- Other messages are the same for one declaration only. -/
theorem eq_of_message_eq (h : s.NamesApart) (hs : s.IsPlain) {stage : Stage} {d d' : Declaration}
    (hd : d ∈ s.declarations) (hd' : d' ∈ s.declarations) {f f' : Diagnostic}
    (hf : f ∈ findingsAt s config outDir stage d) (hf' : f' ∈ findingsAt s config outDir stage d')
    (hcode : f.code = f'.code) (hmessage : f.message = f'.message)
    (htable : f.code ≠ .reservedTableName) : d = d' := by
  obtain ⟨name, hname⟩ := Option.ne_none_iff_exists'.1 (h.named d hd)
  obtain ⟨name', hname'⟩ := Option.ne_none_iff_exists'.1 (h.named d' hd')
  have hsubject := subject_of_mem_findingsAt hs hd hname hf htable
  have hsubject' := subject_of_mem_findingsAt hs hd' hname' hf' (hcode ▸ htable)
  rw [hcode, hmessage, hsubject', Option.some.injEq, String.toList_inj] at hsubject
  exact eq_of_nodup_filterMap h.distinct hd hd' hname (hsubject ▸ hname')

/-! ## Names of tables -/

/-- The warning about the name of a table. -/
def tableFinding (e : Entity) : Diagnostic :=
  Graph.nodeFinding e .reservedTableName .warning
    ("Table or view name " ++ e.tableName ++ " may need to be escaped")

theorem mem_nodeFindings_tableFinding {g : Graph} {e : Entity}
    (h : isReservedName e.tableName = true) : tableFinding e ∈ g.nodeFindings e := by
  refine List.mem_append_right _ ?_
  rw [Graph.reservedTableName, if_pos h]
  exact List.mem_singleton_self _

/-- A finding of that code is the warning about a node of the declaration. -/
theorem exists_of_reservedTableName {stage : Stage} {d : Declaration} {f : Diagnostic}
    (hf : f ∈ findingsAt s config outDir stage d) (hcode : f.code = .reservedTableName) :
    ∃ e ∈ (process s config outDir).graph.nodes, d.knownName? = some e.qualifiedName ∧
      stage = .checking e.kind ∧ isReservedName e.tableName = true ∧ f = tableFinding e := by
  cases stage with
  | building kind =>
    have hbuild := code_mem_of_mem_findings (mem_findings_of_building hf)
    rw [hcode] at hbuild
    exact absurd hbuild (by decide)
  | checking kind =>
    obtain ⟨e, he, hname, rfl, hnode⟩ := mem_findingsAt_checking.1 hf
    cases nodeFinding_of_mem_nodeFindings hnode with
    | reservedTable h => exact ⟨e, he, hname, rfl, h, rfl⟩
    | _ => cases hcode

theorem place_tableFinding_eq_iff {e e' : Entity} :
    (tableFinding e).place = (tableFinding e').place ↔
      (e.source.map Location.text).getD "" = (e'.source.map Location.text).getD "" ∧
        e.tableName = e'.tableName := by
  simp [Diagnostic.place, Diagnostic.locationText, tableFinding, Graph.nodeFinding]

theorem exists_declaration_of_mem_nodes {e : Entity}
    (he : e ∈ (process s config outDir).graph.nodes) :
    ∃ d ∈ s.declarations, d.knownName? = some e.qualifiedName := by
  obtain ⟨d, _, _, hd, rfl, hb⟩ := isBuilt_of_mem_builtOf (mem_builtOf_kind he)
  exact ⟨d, mem_declarations_of_mem_candidates hd, hb.named⟩

/-- Where names hold no blanks, the findings are apart if and only if the tables are. -/
theorem findingsApart_iff (h : s.NamesApart) (hs : s.IsPlain) :
    FindingsApart s config outDir ↔ (process s config outDir).graph.TablesApart := by
  constructor
  · intro hapart e he e' he' hkind hreserved htable hplace
    by_contra hne
    obtain ⟨d, hd, hname⟩ := exists_declaration_of_mem_nodes he
    obtain ⟨d', hd', hname'⟩ := exists_declaration_of_mem_nodes he'
    have hdeclarations : d ≠ d' := by
      rintro rfl
      refine hne ((isKeyed_graph_process s config outDir).node_eq he he' ?_)
      exact Option.some.inj (hname.symm.trans hname')
    have hstage : Stage.checking e.kind ∈ stages := by cases e.kind <;> decide
    refine hapart _ hstage d hd d' hd' hdeclarations (tableFinding e) ?_ (tableFinding e') ?_
      (place_tableFinding_eq_iff.2 ⟨hplace, htable⟩)
    · exact mem_findingsAt_checking.2 ⟨e, he, hname, rfl, mem_nodeFindings_tableFinding hreserved⟩
    · exact mem_findingsAt_checking.2 ⟨e', he', hname', hkind.symm,
        mem_nodeFindings_tableFinding (htable ▸ hreserved)⟩
  · intro htables stage _ d hd d' hd' hne f hf f' hf' hplace
    refine hne ?_
    have hcode : f.code = f'.code := code_eq_of_text_eq (code_mem_of_mem_findingsAt hf)
      (code_mem_of_mem_findingsAt hf') (congrArg (·.2.1) hplace)
    by_cases htable : f.code = .reservedTableName
    · -- the message is silent about the type, but no other node has the same warning
      obtain ⟨e, he, hown, hstage, hreserved, rfl⟩ := exists_of_reservedTableName hf htable
      obtain ⟨e', he', hown', hstage', -, rfl⟩ := exists_of_reservedTableName hf' (hcode ▸ htable)
      obtain ⟨hlocation, hsame⟩ := place_tableFinding_eq_iff.1 hplace
      have hkind : e.kind = e'.kind := Stage.checking.inj (hstage.symm.trans hstage')
      obtain rfl := htables e he e' he' hkind hreserved hsame hlocation
      exact eq_of_nodup_filterMap h.distinct hd hd' hown hown'
    · exact eq_of_message_eq h hs hd hd' hf hf' hcode (congrArg (·.2.2) hplace) htable

/-- For every order of declarations with distinct names the report is the same but for the order of its
findings, and these stand at the same places. All orders give the same report if and only if no two
declarations have findings of one place at one stage; where names hold no blanks, that is to say that
no two types of a kind share the name of a table, if it is reserved, and a location. -/
theorem reports_of_orders (h : s.NamesApart) (config : Config) (outDir : String) (given : Report) :
    (∀ ds, ds.Perm s.declarations →
      let report := (process s config outDir).report given
      let report' := (process (s.reorder ds) config outDir).report given
      { report' with diagnostics := [] }.serialize = { report with diagnostics := [] }.serialize ∧
        report'.diagnostics.Perm report.diagnostics ∧
        report'.diagnostics.map Diagnostic.place = report.diagnostics.map Diagnostic.place) ∧
    ((∀ ds, ds.Perm s.declarations →
      ((process (s.reorder ds) config outDir).report given).serialize =
        ((process s config outDir).report given).serialize) ↔ FindingsApart s config outDir) ∧
    (s.IsPlain →
      (FindingsApart s config outDir ↔ (process s config outDir).graph.TablesApart)) := by
  refine ⟨fun ds hds => ⟨serialize_reorder h hds given [], ?_, ?_⟩, serialize_reorder_iff h given,
    findingsApart_iff h⟩
  · exact (List.mergeSort_perm _ _).trans
      ((diagnostics_reorder_perm h hds).trans (List.mergeSort_perm _ _).symm)
  · exact Diagnostic.map_place_sorted (diagnostics_reorder_perm h hds)

end Run

namespace Sample

/-- The class of orders in another package. -/
def storeOrder : Declaration :=
  { order with packageName := "store", qualifiedName := some "store.Order" }

/-- A class with its ancestors, and another class. -/
def shop : DeclarationSource := .ofDeclarations (item :: declarations) (.create true)

/-- Two classes of one simple name. -/
def stores : DeclarationSource := .ofDeclarations [storeOrder, order] (.create true)

end Sample

namespace Run

theorem reports_of_sample :
    Sample.shop.NamesApart ∧ Sample.shop.IsPlain ∧
      ((process (Sample.shop.reorder Sample.shop.declarations.reverse) .default "gen").report
        (.empty "tool" "1" "/p" "S")).serialize =
      ((process Sample.shop .default "gen").report (.empty "tool" "1" "/p" "S")).serialize := by
  have hnames : Sample.shop.NamesApart := ⟨by decide +kernel, by decide +kernel⟩
  have hplain : Sample.shop.IsPlain := by
    refine ⟨?_, by decide +kernel, DeclarationSource.namesMembers_ofDeclarations (by decide)⟩
    show ∀ d ∈ Sample.shop.declarations, ∀ name ∈ d.knownName?, ' ' ∉ name.toList
    decide +kernel
  obtain ⟨-, htexts, hplaces⟩ := reports_of_orders hnames .default "gen" (.empty "tool" "1" "/p" "S")
  have htables : (process Sample.shop .default "gen").graph.TablesApart := by
    have hreserved : ∀ e ∈ (process Sample.shop .default "gen").graph.nodes,
        isReservedName e.tableName = true → e.qualifiedName = "shop.Order" := by decide +kernel
    intro e he e' he' _ h htable _
    refine (isKeyed_graph_process _ _ _).node_eq he he' ?_
    rw [hreserved e he h, hreserved e' he' (htable ▸ h)]
  exact ⟨hnames, hplain, htexts.2 ((hplaces hplain).2 htables) _ (List.reverse_perm _)⟩

/-- Two classes of one simple name, which is a reserved word, have the same warning; the report lists
them in the order of the declarations. -/
theorem stores_show_order :
    Sample.stores.NamesApart ∧
      Sample.stores.declarations.reverse.Perm Sample.stores.declarations ∧
      ((process (Sample.stores.reorder Sample.stores.declarations.reverse) .default "gen").report
        (.empty "tool" "1" "/p" "S")).serialize ≠
      ((process Sample.stores .default "gen").report (.empty "tool" "1" "/p" "S")).serialize := by
  have hnames : Sample.stores.NamesApart := ⟨by decide +kernel, by decide +kernel⟩
  have hreverse := List.reverse_perm Sample.stores.declarations
  refine ⟨hnames, hreverse, fun htext => ?_⟩
  have hentities := map_entity_of_report_eq (namesApart_reorder hnames hreverse) hnames htext
  -- of one place, findings are listed as they come
  have hties := Diagnostic.map_filter_eq_of_map_eq
    (Diagnostic.map_place_sorted (diagnostics_reorder_perm hnames hreverse)) hentities
    ("", "reservedTableName", "Table or view name Order may need to be escaped")
  rw [Diagnostic.filter_place_sorted, Diagnostic.filter_place_sorted] at hties
  revert hties
  decide +kernel

end Run

end Metamodel
