import Metamodel.Proofs.Graph.Order
import Metamodel.Proofs.Json.ReadBack
import Metamodel.Proofs.Report.Account

/-!
# The text of a report

Counts are written in an order of their own, so that the order in which names were first counted does
not show (`serialize_counts`), and neither does the order of what a run has found, except in the list
of its findings (`serialize_record_perm`). The text tells what each finding is about, in the order in
which the findings stand (`map_entity_of_serialize_eq`).
-/

namespace Metamodel

open Json

/-- The counted names are distinct, and none of them is that of the prototype. -/
structure Counts.IsNamed (c : Counts) : Prop where
  distinct : (c.map Prod.fst).Nodup
  prototype : prototypeName ∉ c.map Prod.fst

namespace Json

/-! ## Values with names of their own -/

theorem isNamed_ofPresent {ms : List (String × Option Json)} (names : (ms.map Prod.fst).Nodup)
    (prototype : prototypeName ∉ ms.map Prod.fst)
    (members : ∀ m ∈ ms, ∀ v, m.2 = some v → IsNamed v) : IsNamed (.ofPresent ms) := by
  have hsublist : ((ms.filterMap fun m => m.2.map (m.1, ·)).map Prod.fst).Sublist
      (ms.map Prod.fst) := by
    rw [List.map_filterMap, ← List.filterMap_eq_map (f := Prod.fst)]
    refine filterMap_sublist_filterMap fun m name hname => ?_
    obtain ⟨entry, hentry, rfl⟩ := Option.map_eq_some_iff.1 hname
    obtain ⟨v, -, rfl⟩ := Option.map_eq_some_iff.1 hentry
    rfl
  refine .object (names.sublist hsublist) (fun h => prototype (hsublist.subset h)) ?_
  intro entry hentry
  obtain ⟨m, hm, hentry⟩ := List.mem_filterMap.1 hentry
  obtain ⟨v, hv, rfl⟩ := Option.map_eq_some_iff.1 hentry
  exact members m hm v hv

theorem isNamed_strings (xs : List String) : IsNamed (.strings xs) :=
  .array (List.forall_mem_map.2 fun s _ => .string s)

theorem isNamed_of_map {α : Type} {f : α → Json} (hf : ∀ a, IsNamed (f a)) {o : Option α}
    (v : Json) (h : o.map f = some v) : IsNamed v := by
  obtain ⟨a, -, rfl⟩ := Option.map_eq_some_iff.1 h
  exact hf a

end Json

theorem Location.isNamed_toJson (l : Location) : IsNamed l.toJson := by
  refine isNamed_ofPresent (show ["file", "line", "col"].Nodup by decide)
    (show prototypeName ∉ ["file", "line", "col"] by decide) ?_
  simp only [List.forall_mem_cons]
  exact ⟨isNamed_of_map (o := some l.file) .string, isNamed_of_map fun _ => .number _,
    isNamed_of_map fun _ => .number _, nofun⟩

namespace Diagnostic

/-- The names of a finding's members, those that may be left out included. -/
def memberNames : List String :=
  ["code", "severity", "message", "entity", "property", "location"]

theorem isNamed_toJson (d : Diagnostic) : IsNamed d.toJson := by
  refine isNamed_ofPresent (show memberNames.Nodup by decide)
    (show prototypeName ∉ memberNames by decide) ?_
  simp only [List.forall_mem_cons]
  exact ⟨isNamed_of_map (o := some d.code.text) .string,
    isNamed_of_map (o := some d.severity.text) .string, isNamed_of_map (o := some d.message) .string,
    isNamed_of_map .string, isNamed_of_map .string, isNamed_of_map Location.isNamed_toJson, nofun⟩

/-- A written finding tells what it is about. -/
theorem entity_eq_of_agrees {a b : Diagnostic}
    (h : Agrees (readBack a.toJson) (readBack b.toJson)) {name name' : String}
    (ha : a.entity = some name) (hb : b.entity = some name') : name = name' := by
  have hmem {d : Diagnostic} {name : String} (hd : d.entity = some name) :
      ∃ ms, d.toJson = .object ms ∧ ("entity", .string name) ∈ ms :=
    ⟨_, rfl, by simp [hd]⟩
  obtain ⟨ms, hms, hname⟩ := hmem ha
  obtain ⟨ns, hns, hname'⟩ := hmem hb
  have hnamed := b.isNamed_toJson
  rw [hms, hns] at h
  rw [hns] at hnamed
  cases hnamed.agrees_member h hname hname'
  rfl

/-- Findings that are written alike, in the same order, are about the same things. -/
theorem map_entity_eq {ds ds' : List Diagnostic} (habout : ∀ d ∈ ds, d.entity ≠ none)
    (habout' : ∀ d ∈ ds', d.entity ≠ none)
    (h : List.Forall₂ (fun a b => Agrees (readBack a.toJson) (readBack b.toJson)) ds ds') :
    ds.map entity = ds'.map entity := by
  induction h with
  | nil => rfl
  | @cons a b ds ds' hab _ ih =>
    obtain ⟨ha, hds⟩ := List.forall_mem_cons.1 habout
    obtain ⟨hb, hds'⟩ := List.forall_mem_cons.1 habout'
    obtain ⟨name, ha⟩ := Option.ne_none_iff_exists'.1 ha
    obtain ⟨name', hb⟩ := Option.ne_none_iff_exists'.1 hb
    rw [List.map_cons, List.map_cons, ih hds hds', ha, hb, entity_eq_of_agrees hab ha hb]

end Diagnostic

namespace Report

/-- The counted names of a report are distinct, and none of them is that of the prototype. -/
structure IsNamed (r : Report) : Prop where
  kinds : r.entitiesByKind.IsNamed
  cardinalities : r.relationshipsByCardinality.IsNamed

theorem map_fst_counts (c : Counts) :
    (c.map fun e => (e.1, Json.number e.2)).map Prod.fst = c.map Prod.fst := by
  rw [List.map_map]
  rfl

theorem isNamed_counts {c : Counts} (h : c.IsNamed) : Json.IsNamed c.toJson := by
  refine .object ?_ ?_ (List.forall_mem_map.2 fun e _ => .number e.2)
  · rw [map_fst_counts]
    exact h.distinct
  · rw [map_fst_counts]
    exact h.prototype

/-- The names of a report's members. -/
def memberNames : List String :=
  ["schema", "tool", "projectRoot", "startedAtIso", "finishedAtIso", "filesScanned",
    "declarationsRead", "emitted", "counts", "invalid", "diagnostics"]

/-- The names of what a report counts. -/
def countNames : List String :=
  ["entitiesByKind", "relationshipsByCardinality", "diagnosticsBySeverity", "artifactsWritten"]

theorem isNamed_severities (c : SeverityCounts) : Json.IsNamed c.toJson := by
  refine .object (show ["info", "warning", "error"].Nodup by decide)
    (show prototypeName ∉ ["info", "warning", "error"] by decide) ?_
  simp only [List.forall_mem_cons]
  exact ⟨.number _, .number _, .number _, nofun⟩

theorem isNamed_toJson {r : Report} (h : r.IsNamed) : Json.IsNamed r.toJson := by
  refine .object (show memberNames.Nodup by decide) (show prototypeName ∉ memberNames by decide) ?_
  simp only [List.forall_mem_cons]
  refine ⟨.string _, .object (show ["name", "version"].Nodup by decide)
    (show prototypeName ∉ ["name", "version"] by decide) ?_, .string _, .string _, .string _,
    .number _, .number _, .bool _, .object (show countNames.Nodup by decide)
    (show prototypeName ∉ countNames by decide) ?_, isNamed_strings _,
    .array (List.forall_mem_map.2 fun d _ => d.isNamed_toJson), nofun⟩
  · simp only [List.forall_mem_cons]
    exact ⟨.string _, .string _, nofun⟩
  · simp only [List.forall_mem_cons]
    exact ⟨isNamed_counts h.kinds, isNamed_counts h.cardinalities, isNamed_severities _, .number _,
      nofun⟩

/-- The text of a report tells what its findings are about, in their order. -/
theorem map_entity_of_serialize_eq {r r' : Report} (hr : r.IsNamed) (hr' : r'.IsNamed)
    (habout : ∀ d ∈ r.diagnostics, d.entity ≠ none)
    (habout' : ∀ d ∈ r'.diagnostics, d.entity ≠ none) (h : r.serialize = r'.serialize) :
    r.diagnostics.map Diagnostic.entity = r'.diagnostics.map Diagnostic.entity := by
  have hagrees := agrees_of_stableText (isNamed_toJson hr) (isNamed_toJson hr') h
  have hmem (r : Report) : ∃ ms, r.toJson = .object ms ∧
      ("diagnostics", .array (r.diagnostics.map (·.toJson))) ∈ ms :=
    ⟨_, rfl, by simp⟩
  obtain ⟨ms, hms, hdiagnostics⟩ := hmem r
  obtain ⟨ns, hns, hdiagnostics'⟩ := hmem r'
  have hnamed := isNamed_toJson hr'
  rw [hms, hns] at hagrees
  rw [hns] at hnamed
  have hlists := hnamed.agrees_member hagrees hdiagnostics hdiagnostics'
  simp only [readBack, readBackItems_eq, List.map_map] at hlists
  cases hlists with
  | array hitems =>
    refine Diagnostic.map_entity_eq habout habout' ?_
    exact List.forall₂_map_right_iff.1 (List.forall₂_map_left_iff.1 hitems)

/-! ## The order of counting -/

theorem canonical_counts {c c' : Counts} (h : c.Perm c') (hc : c.IsNamed) :
    canonical c.toJson = canonical c'.toJson := by
  have hprototype := hc.prototype
  have hdistinct := hc.distinct
  have hprototype' : prototypeName ∉ c'.map Prod.fst := by
    rwa [← (h.map Prod.fst).mem_iff]
  rw [← map_fst_counts] at hprototype hdistinct hprototype'
  rw [Counts.toJson, Counts.toJson, canonical_object hprototype, canonical_object hprototype',
    arranged_eq_of_perm (h.map _) hdistinct]

/-- Objects whose members have the same canonical forms have the same one. -/
theorem canonical_object_congr {ms ns : List (String × Json)}
    (hms : prototypeName ∉ ms.map Prod.fst) (hns : prototypeName ∉ ns.map Prod.fst)
    (h : ms.map (Prod.map id canonical) = ns.map (Prod.map id canonical)) :
    canonical (.object ms) = canonical (.object ns) := by
  rw [canonical_object hms, canonical_object hns, ← arranged_map, ← arranged_map, h]

/-- The order in which names were first counted does not show. -/
theorem serialize_counts {r : Report} (hr : r.IsNamed) {kinds cardinalities : Counts}
    (hkinds : r.entitiesByKind.Perm kinds)
    (hcardinalities : r.relationshipsByCardinality.Perm cardinalities) :
    { r with entitiesByKind := kinds, relationshipsByCardinality := cardinalities }.serialize =
      r.serialize := by
  have hcanonical : canonical { r with
      entitiesByKind := kinds, relationshipsByCardinality := cardinalities }.toJson =
      canonical r.toJson := by
    refine canonical_object_congr (show prototypeName ∉ memberNames by decide)
      (show prototypeName ∉ memberNames by decide) ?_
    have hcounts : canonical (.object [("entitiesByKind", kinds.toJson),
        ("relationshipsByCardinality", cardinalities.toJson),
        ("diagnosticsBySeverity", r.diagnosticsBySeverity.toJson),
        ("artifactsWritten", .nat r.artifactsWritten)]) =
        canonical (.object [("entitiesByKind", r.entitiesByKind.toJson),
          ("relationshipsByCardinality", r.relationshipsByCardinality.toJson),
          ("diagnosticsBySeverity", r.diagnosticsBySeverity.toJson),
          ("artifactsWritten", .nat r.artifactsWritten)]) := by
      refine canonical_object_congr (show prototypeName ∉ countNames by decide)
        (show prototypeName ∉ countNames by decide) ?_
      simp only [List.map_cons, Prod.map, canonical_counts hkinds hr.kinds,
        canonical_counts hcardinalities hr.cardinalities]
    simp only [List.map_cons, Prod.map, hcounts]
  rw [serialize, serialize, stableText, stableText, hcanonical]

/-! ## The order of a run -/

/-- The numbers of all severities make up the counts. -/
theorem ext_number {c c' : SeverityCounts} (h : ∀ s, c.number s = c'.number s) : c = c' :=
  SeverityCounts.ext (h .info) (h .warning) (h .error)

section

variable {α β : Type} {name : β → String} (h : ∀ b, name b ≠ prototypeName) (f : α → β)

include h

theorem isNamed_foldl (xs : List α) :
    Counts.IsNamed (xs.foldl (fun (c : Counts) x => c.increase (name (f x)) (.ofNat 1)) []) := by
  refine ⟨(tells_foldl h f xs).distinct, ?_⟩
  rw [foldl_eq_tally h, Counts.map_fst_tally, List.mem_eraseDups]
  exact prototypeName_notMem h

/-- The order in which items are counted shows in the order of the counts alone. -/
theorem foldl_perm {xs ys : List α} (hp : xs.Perm ys) :
    (xs.foldl (fun (c : Counts) x => c.increase (name (f x)) (.ofNat 1)) []).Perm
      (ys.foldl (fun (c : Counts) x => c.increase (name (f x)) (.ofNat 1)) []) := by
  have hnames := hp.map fun x => name (f x)
  rw [foldl_eq_tally h, foldl_eq_tally h]
  unfold Counts.tally
  simp only [hnames.count_eq]
  exact (eraseDups_perm hnames).map _

end

/-- The report before anything is counted. -/
def withoutCounts (r : Report) : Report :=
  { r with entitiesByKind := [], relationshipsByCardinality := [] }

theorem isNamed_record (r : Report) (graph : Graph) (ds : List Diagnostic) (invalid : List String)
    (emitted : Bool) : (r.withoutCounts.record graph ds invalid emitted).IsNamed where
  kinds := isNamed_foldl kind_text_ne_prototypeName Entity.kind graph.nodes
  cardinalities :=
    isNamed_foldl nameOf_ne_prototypeName (fun e : Edge => e.property.cardinality) graph.edges

/-- Where two runs have the same contents in whatever order, their reports have the same text once
the findings of both are listed alike. -/
theorem serialize_record_perm (r : Report) {graph graph' : Graph} (hgraph : graph.SameContents graph')
    {ds ds' : List Diagnostic} (hds : ds.Perm ds') {invalid invalid' : List String}
    (hinvalid : invalid.Perm invalid') (emitted : Bool) (listed : List Diagnostic) :
    { r.withoutCounts.record graph' ds' invalid' emitted with diagnostics := listed }.serialize =
      { r.withoutCounts.record graph ds invalid emitted with diagnostics := listed }.serialize := by
  have hseverities : SeverityCounts.of ds' = .of ds :=
    ext_number fun s => by rw [number_of, number_of, hds.countP_eq]
  have hnamed : Report.IsNamed
      { r.withoutCounts.record graph ds invalid emitted with diagnostics := listed } :=
    ⟨(isNamed_record r graph ds invalid emitted).kinds,
      (isNamed_record r graph ds invalid emitted).cardinalities⟩
  refine Eq.trans ?_ (serialize_counts hnamed
    (foldl_perm kind_text_ne_prototypeName Entity.kind hgraph.nodes)
    (foldl_perm nameOf_ne_prototypeName (fun e : Edge => e.property.cardinality) hgraph.edges))
  simp only [record, hseverities, Text.collated_perm hinvalid]
  rfl

end Report

end Metamodel
