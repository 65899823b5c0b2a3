import Mathlib.Data.List.Flatten
import Mathlib.Data.List.Perm.Basic
import Metamodel.Proofs.Run.Agreement
import Metamodel.Proofs.Run.Inheritance

/-!
# Declarations that cannot be built

A declaration that cannot be built costs a run one finding and one label for each kind it is marked
as, and nothing else: the run gives what it would give if the declaration were there without its
markers (`process_unmarked`). The declaration itself stays in the walk of those that inherit
through it, since unmarking leaves its heading as it is.
-/

namespace Metamodel

/-! ## Markers -/

/-- Whether an annotation marks a declaration to be built. -/
def Annotation.isMarker (a : Annotation) (catalog : Catalog) : Bool :=
  Run.kinds.any fun kind => (catalog.lookup? a.name).any (·.kind == kind.marker)

/-- The declaration without its markers as entity, superclass or embeddable. -/
def Declaration.unmarked (d : Declaration) (catalog : Catalog) : Declaration :=
  { d with annotations := d.annotations.map (List.filter (!·.isMarker catalog)) }

theorem Declaration.heading?_unmarked (d : Declaration) (catalog : Catalog) :
    (d.unmarked catalog).heading? = d.heading? := rfl

theorem hasMark_marksOf (catalog : Catalog) (as : List Annotation) (kind : AnnotationKind) :
    hasMark (marksOf catalog as) kind =
      as.any fun a => (catalog.lookup? a.name).any (·.kind == kind) := by
  unfold hasMark marksOf
  rw [List.any_filterMap]
  refine congrArg as.any (funext fun a => ?_)
  cases catalog.lookup? a.name <;> rfl

theorem hasMark_unmarked (s : DeclarationSource) (d : Declaration) (kind : EntityKind) :
    hasMark (s.typeMarks (d.unmarked s.catalog)) kind.marker = false := by
  have hkind : kind ∈ Run.kinds := by cases kind <;> decide
  unfold DeclarationSource.typeMarks Declaration.unmarked
  rw [hasMark_marksOf, List.any_eq_false]
  intro a ha
  cases has : d.annotations with
  | none => simp [has] at ha
  | some as =>
    simp only [has, Option.map_some, Option.getD_some, List.mem_filter] at ha
    intro hmark
    have hmarker : a.isMarker s.catalog = true := List.any_eq_true.2 ⟨kind, hkind, hmark⟩
    rw [hmarker] at ha
    exact absurd ha.2 (by decide)

/-! ## Obstacles -/

theorem Mark.mem_keys_of_getType? {mark : Mark} {key : String} {ref : TypeRef}
    (h : mark.getType? key = some ref) : key ∈ mark.keys := by
  unfold Mark.getType? at h
  cases hl : mark.values.lookup key with
  | none => simp [hl] at h
  | some v =>
    have hmem : (key, v) ∈ mark.values := by
      obtain ⟨before, after, heq, -⟩ := List.lookup_eq_some_iff.1 hl
      rw [heq]
      exact List.mem_append_right _ List.mem_cons_self
    exact List.mem_mergeSort.2 (List.mem_map.2 ⟨(key, v), hmem, rfl⟩)

/-- An unresolved reference is found wherever it stands. -/
theorem isSome_unresolvedReference?_iff {marks : List Mark} :
    (unresolvedReference? marks).isSome ↔
      ∃ mark ∈ marks, ∃ key ref, mark.getType? key = some ref ∧ ref.isUnresolved = true := by
  unfold unresolvedReference?
  simp only [List.findSome?_isSome_iff, Option.isSome_map, Option.isSome_filter]
  constructor
  · rintro ⟨mark, hmark, key, -, hkey⟩
    obtain ⟨ref, href, hun⟩ := (Option.any_eq_true _ _).1 hkey
    exact ⟨mark, hmark, key, ref, href, hun⟩
  · rintro ⟨mark, hmark, key, ref, href, hun⟩
    exact ⟨mark, hmark, key, Mark.mem_keys_of_getType? href,
      (Option.any_eq_true _ _).2 ⟨ref, href, hun⟩⟩

/-- A declaration cannot be built when it has no name, when an annotation of it refers to an
unresolved type, or when the source does not supply its members. -/
def DeclarationSource.Unbuildable (s : DeclarationSource) (d : Declaration) : Prop :=
  d.knownName? = none ∨
    (∃ mark ∈ s.typeMarks d, ∃ key ref, mark.getType? key = some ref ∧ ref.isUnresolved = true) ∨
    ∃ failure, s.members d = .error failure

theorem DeclarationSource.unbuildable_iff {s : DeclarationSource} {d : Declaration}
    (kind : EntityKind) : s.Unbuildable d ↔ ∃ e, s.obstacle? kind d = some e := by
  unfold Unbuildable obstacle?
  rw [← isSome_unresolvedReference?_iff]
  cases d.knownName? with
  | none => simp
  | some name =>
    cases unresolvedReference? (s.typeMarks d) with
    | some ref => simp
    | none => cases s.members d <;> simp

/-- The code under which a run reports that a declaration cannot be built. -/
def DeclarationSource.failureCode (s : DeclarationSource) (d : Declaration) : DiagnosticCode :=
  if d.knownName?.isNone then .missingQualifiedName
  else if (unresolvedReference? (s.typeMarks d)).isSome then .unresolvedAnnotationReference
  else .internalError

namespace Run

theorem rejection_of_obstacle {s : DeclarationSource} {kind : EntityKind} {d : Declaration}
    {e : BuildError} (h : s.obstacle? kind d = some e) :
    (rejection d e).severity = .error ∧ (rejection d e).code = s.failureCode d ∧
      (rejection d e).location = d.source := by
  unfold DeclarationSource.failureCode
  rcases DeclarationSource.obstacle_cases h with
    ⟨hname, rfl⟩ | ⟨name, mark, key, type, hname, href, rfl⟩ | ⟨name, failure, hname, href, hmem, rfl⟩
  · rw [hname]
    exact ⟨rfl, rfl, rfl⟩
  · rw [hname, href]
    exact ⟨rfl, rfl, rfl⟩
  · rw [hname, href]
    exact ⟨rfl, rfl, rfl⟩

/-! ## Declarations singled out -/

/-- A source of declarations of which some are singled out. -/
structure Selection where
  /-- the declarations, each with whether it is singled out -/
  items : List (Declaration × Bool)
  catalog : Catalog
  members : Declaration → Except SupplyFailure (List Member)

namespace Selection

/-- The source of all the declarations. -/
def source (x : Selection) : DeclarationSource :=
  ⟨x.items.map (·.1), x.catalog, x.members⟩

/-- The source in which the declarations singled out have no markers. -/
def unmarkedSource (x : Selection) : DeclarationSource :=
  ⟨x.items.map fun i => if i.2 then i.1.unmarked x.catalog else i.1, x.catalog, x.members⟩

/-- The items whose declarations have the marker of a kind. -/
def marked (x : Selection) (kind : EntityKind) : List (Declaration × Bool) :=
  x.items.filter fun i => hasMark (x.source.typeMarks i.1) kind.marker

/-- The declarations singled out that have the marker of a kind. -/
def singled (x : Selection) (kind : EntityKind) : List Declaration :=
  ((x.marked kind).filter (·.2)).map (·.1)

/-- No two declarations share a name, and those singled out cannot be built. -/
structure Failing (x : Selection) : Prop where
  names : (x.source.declarations.filterMap Declaration.knownName?).Nodup
  unbuildable : ∀ i ∈ x.items, i.2 = true → x.source.Unbuildable i.1

variable {x : Selection}

theorem headings_unmarkedSource (x : Selection) : x.unmarkedSource.headings = x.source.headings := by
  unfold DeclarationSource.headings unmarkedSource source
  rw [List.filterMap_map, List.filterMap_map]
  refine List.filterMap_congr fun i _ => ?_
  simp only [Function.comp_apply]
  split
  · exact Declaration.heading?_unmarked i.1 x.catalog
  · rfl

theorem names_unmarkedSource (h : x.Failing) :
    (x.unmarkedSource.declarations.filterMap Declaration.knownName?).Nodup := by
  rw [← DeclarationSource.map_name_headings, headings_unmarkedSource,
    DeclarationSource.map_name_headings]
  exact h.names

theorem candidates_source (h : x.Failing) (kind : EntityKind) :
    candidates x.source kind.marker = (x.marked kind).map (·.1) := by
  rw [candidates_eq_filter h.names, marked]
  exact List.filter_map

/-- Without their markers the declarations singled out are no candidates. -/
theorem candidates_unmarkedSource (h : x.Failing) (kind : EntityKind) :
    candidates x.unmarkedSource kind.marker =
      ((x.marked kind).filter (!·.2)).map (·.1) := by
  rw [candidates_eq_filter (names_unmarkedSource h), marked, List.filter_filter]
  unfold unmarkedSource
  rw [List.filter_map]
  have hmark (i : Declaration × Bool) :
      hasMark (x.source.typeMarks (if i.2 then i.1.unmarked x.catalog else i.1)) kind.marker =
        (!i.2 && hasMark (x.source.typeMarks i.1) kind.marker) := by
    cases hi : i.2 with
    | true => exact hasMark_unmarked x.source i.1 kind
    | false => rfl
  have hfilter : x.items.filter (fun i => hasMark (x.source.typeMarks
        (if i.2 then i.1.unmarked x.catalog else i.1)) kind.marker) =
      x.items.filter fun i => !i.2 && hasMark (x.source.typeMarks i.1) kind.marker :=
    List.filter_congr fun i _ => hmark i
  refine (congrArg (List.map _) hfilter).trans (List.map_congr_left fun i hi => ?_)
  have hout : i.2 = false := by
    have hkept := (List.mem_filter.1 hi).2
    rw [Bool.and_eq_true, Bool.not_eq_true'] at hkept
    exact hkept.1
  rw [hout]
  rfl

/-- The candidates that can be built are the same, in the same order. -/
theorem buildable_eq (h : x.Failing) : buildable x.source = buildable x.unmarkedSource := by
  funext kind
  have hobstacle : x.unmarkedSource.obstacle? kind = x.source.obstacle? kind := rfl
  unfold buildable
  rw [candidates_source h, candidates_unmarkedSource h, hobstacle, List.filter_map, List.filter_map,
    List.filter_filter]
  refine congrArg _ (List.filter_congr fun i hi => ?_)
  cases hout : i.2 with
  | false => simp
  | true =>
    obtain ⟨e, he⟩ := (DeclarationSource.unbuildable_iff kind).1
      (h.unbuildable i (List.mem_filter.1 hi).1 hout)
    simp [he]

theorem agree (h : x.Failing) : Agree x.source x.unmarkedSource where
  catalog := rfl
  members := rfl
  names := h.names
  headings := .of_eq x.headings_unmarkedSource.symm
  buildable kind := .of_eq (congrFun (buildable_eq h) kind)

end Selection

/-! ## What a failure costs -/

section

variable {α β κ : Type} (ks : List κ)

/-- What is gathered from fewer items comes in the same order. -/
theorem flatMap_flatMap_sublist {fewer items : κ → List α} (h : ∀ k, (fewer k).Sublist (items k))
    (f : κ → α → List β) :
    (ks.flatMap fun k => (fewer k).flatMap (f k)).Sublist
      (ks.flatMap fun k => (items k).flatMap (f k)) :=
  List.Sublist.flatMap_right ks fun k _ => (h k).flatMap (f k)

/-- What is gathered from the items is what is gathered from the one part and from the other. -/
theorem flatMap_flatMap_perm {items part rest : κ → List α}
    (h : ∀ k, (items k).Perm (part k ++ rest k)) (f : κ → α → List β) :
    (ks.flatMap fun k => (items k).flatMap (f k)).Perm
      ((ks.flatMap fun k => (part k).flatMap (f k)) ++
        ks.flatMap fun k => (rest k).flatMap (f k)) := by
  refine List.Perm.trans ?_ (List.flatMap_append_perm ks _ _).symm
  refine List.Perm.flatMap_left ks fun k _ => ?_
  rw [← List.flatMap_append]
  exact List.Perm.flatMap_right (f k) (h k)

variable (items : κ → List α) (p : α → Bool) (f : κ → α → List β)

theorem flatMap_filter_sublist :
    (ks.flatMap fun k => ((items k).filter (!p ·)).flatMap (f k)).Sublist
      (ks.flatMap fun k => (items k).flatMap (f k)) :=
  flatMap_flatMap_sublist ks (fun _ => List.filter_sublist) f

theorem flatMap_filter_perm :
    (ks.flatMap fun k => (items k).flatMap (f k)).Perm
      ((ks.flatMap fun k => ((items k).filter (!p ·)).flatMap (f k)) ++
        ks.flatMap fun k => ((items k).filter p).flatMap (f k)) :=
  flatMap_flatMap_perm ks
    (fun k => ((List.filter_append_perm p (items k)).symm).trans List.perm_append_comm) f

end

namespace Selection

variable {x : Selection}

theorem diagnostics_source (h : x.Failing) (config : Config) :
    (build x.source config).diagnostics =
      kinds.flatMap fun kind =>
        (x.marked kind).flatMap fun i => findings (build x.source config).context kind i.1 := by
  rw [diagnostics_build]
  simp only [candidates_source h, List.flatMap_map]

theorem diagnostics_unmarkedSource (h : x.Failing) (config : Config) :
    (build x.unmarkedSource config).diagnostics =
      kinds.flatMap fun kind => ((x.marked kind).filter (!·.2)).flatMap fun i =>
        findings (build x.source config).context kind i.1 := by
  rw [diagnostics_build]
  simp only [candidates_unmarkedSource h, List.flatMap_map, (agree h).findings_eq config]

theorem invalid_source (h : x.Failing) (config : Config) :
    (build x.source config).invalid =
      kinds.flatMap fun kind =>
        (x.marked kind).flatMap fun i => invalidLabels x.source kind i.1 := by
  rw [invalid_build]
  simp only [candidates_source h, List.flatMap_map]

theorem invalid_unmarkedSource (h : x.Failing) (config : Config) :
    (build x.unmarkedSource config).invalid =
      kinds.flatMap fun kind => ((x.marked kind).filter (!·.2)).flatMap fun i =>
        invalidLabels x.source kind i.1 := by
  rw [invalid_build]
  simp only [candidates_unmarkedSource h, List.flatMap_map]
  rfl

theorem obstacle_of_mem_singled (h : x.Failing) {kind : EntityKind} {d : Declaration}
    (hd : d ∈ x.singled kind) : ∃ e, x.source.obstacle? kind d = some e := by
  obtain ⟨i, hi, rfl⟩ := List.mem_map.1 hd
  obtain ⟨hmarked, hsingled⟩ := List.mem_filter.1 hi
  exact (DeclarationSource.unbuildable_iff kind).1
    (h.unbuildable i (List.mem_filter.1 hmarked).1 hsingled)

/-- The error that a declaration singled out is reported with as of a kind. -/
def failure (x : Selection) (kind : EntityKind) (d : Declaration) : Diagnostic :=
  ((x.source.obstacle? kind d).map (rejection d)).getD default

theorem failure_of_mem_singled (h : x.Failing) {kind : EntityKind} {d : Declaration}
    (hd : d ∈ x.singled kind) :
    (x.failure kind d).severity = .error ∧ (x.failure kind d).code = x.source.failureCode d ∧
      (x.failure kind d).location = d.source := by
  obtain ⟨e, he⟩ := obstacle_of_mem_singled h hd
  have := rejection_of_obstacle he
  rwa [failure, he]

theorem flatMap_findings_singled (h : x.Failing) (config : Config) (kind : EntityKind) :
    ((x.marked kind).filter (·.2)).flatMap
        (fun i => findings (build x.source config).context kind i.1) =
      (x.singled kind).map (x.failure kind) := by
  rw [← List.flatMap_map (f := Prod.fst), ← singled, List.map_eq_flatMap]
  refine List.flatMap_congr fun d hd => ?_
  obtain ⟨e, he⟩ := obstacle_of_mem_singled h hd
  have herror : buildEntity (build x.source config).context d kind = .error e :=
    buildEntity_of_obstacle (by rw [source_build, he])
  rw [findings, herror, failure, he]
  rfl

theorem flatMap_invalidLabels_singled (h : x.Failing) (kind : EntityKind) :
    ((x.marked kind).filter (·.2)).flatMap (fun i => invalidLabels x.source kind i.1) =
      (x.singled kind).map Declaration.label := by
  rw [← List.flatMap_map (f := Prod.fst), ← singled, List.map_eq_flatMap]
  refine List.flatMap_congr fun d hd => ?_
  obtain ⟨e, he⟩ := obstacle_of_mem_singled h hd
  rw [invalidLabels, he]
  rfl

theorem graph_eq (h : x.Failing) (config : Config) (outDir : String) :
    (process x.source config outDir).graph = (process x.unmarkedSource config outDir).graph := by
  rw [graph_process, graph_process]
  simp only [(agree h).builtOf_eq config (buildable_eq h)]

end Selection

/-- A run that makes artifacts in spite of errors gives the same, whether declarations that cannot
be built have their markers or not. Only that each of them is reported, with one error and one
label for each kind that it is marked as. -/
theorem process_unmarked (x : Selection) (h : x.Failing) (config : Config)
    (halways : config.generateAlways = true) (outDir : String) :
    let run := process x.source config outDir
    let run' := process x.unmarkedSource config outDir
    run.graph = run'.graph ∧ run.artifacts = run'.artifacts ∧
      (∀ kind, ∀ d ∈ x.singled kind, (x.failure kind d).severity = .error ∧
        (x.failure kind d).code = x.source.failureCode d ∧
        (x.failure kind d).location = d.source) ∧
      run'.diagnostics.Sublist run.diagnostics ∧
      run.diagnostics.Perm (run'.diagnostics ++
        kinds.flatMap fun kind => (x.singled kind).map (x.failure kind)) ∧
      run'.invalid.Sublist run.invalid ∧
      run.invalid.Perm (run'.invalid ++
        kinds.flatMap fun kind => (x.singled kind).map Declaration.label) := by
  have hgraph := Selection.graph_eq h config outDir
  have hemitted (s : DeclarationSource) : (process s config outDir).emitted = true := by
    show (config.generateAlways || _) = true
    rw [halways]
    rfl
  have hdiagnostics (s : DeclarationSource) : (process s config outDir).diagnostics =
      (build s config).diagnostics ++ (process s config outDir).graph.validate := rfl
  have hinvalid (s : DeclarationSource) :
      (process s config outDir).invalid = (build s config).invalid := rfl
  have hsplit := flatMap_filter_perm kinds x.marked (·.2) fun kind i =>
    findings (build x.source config).context kind i.1
  have hsub := flatMap_filter_sublist kinds x.marked (·.2) fun kind i =>
    findings (build x.source config).context kind i.1
  simp only [Selection.flatMap_findings_singled h] at hsplit
  refine ⟨hgraph, ?_, fun kind d hd => Selection.failure_of_mem_singled h hd, ?_, ?_, ?_, ?_⟩
  · rw [artifacts_process, artifacts_process, hemitted, hemitted, hgraph]
  · rw [hdiagnostics, hdiagnostics, hgraph, Selection.diagnostics_source h,
      Selection.diagnostics_unmarkedSource h]
    exact hsub.append_right _
  · rw [hdiagnostics, hdiagnostics, hgraph, Selection.diagnostics_source h,
      Selection.diagnostics_unmarkedSource h]
    refine (hsplit.append_right _).trans ?_
    rw [List.append_assoc, List.append_assoc]
    exact List.perm_append_comm.append_left _
  · rw [hinvalid, hinvalid, Selection.invalid_source h, Selection.invalid_unmarkedSource h]
    exact flatMap_filter_sublist _ _ _ _
  · rw [hinvalid, hinvalid, Selection.invalid_source h, Selection.invalid_unmarkedSource h]
    have hlabels := flatMap_filter_perm kinds x.marked (·.2) fun kind i =>
      invalidLabels x.source kind i.1
    simpa only [Selection.flatMap_invalidLabels_singled h] using hlabels

end Run

/-! ## A type that fails in the middle -/

namespace Sample

def root : Declaration :=
  type .class "Root" ["Superclass"] [] [field "origin" []]

/-- A class that is marked twice and has no members to be found. -/
def middle : Declaration :=
  type .class "Middle" ["Superclass", "Entity"] ["Root"] []

def leaf : Declaration :=
  type .class "Leaf" ["Entity"] ["Middle"] [field "id" ["Key"]]

def broken : Run.Selection where
  items := [(leaf, false), (middle, true), (root, false)]
  catalog := .create true
  members := fun d =>
    if d.simpleName = "Middle" then .error (.error "out of reach") else .ok (d.members.getD [])

theorem failing_broken : broken.Failing where
  names := by decide +kernel
  unbuildable i hi hsingled := by
    simp only [broken, List.mem_cons, List.not_mem_nil, or_false] at hi
    rcases hi with rfl | rfl | rfl
    · cases hsingled
    · exact Or.inr (Or.inr ⟨_, rfl⟩)
    · cases hsingled

end Sample

/-- The leaf still inherits from the root, past the type in the middle, which is reported twice. -/
theorem process_broken :
    let run := Run.process Sample.broken.source .default "gen"
    let run' := Run.process Sample.broken.unmarkedSource .default "gen"
    run.graph.nodes.map (fun e => (e.simpleName, e.properties.map (·.name))) =
        [("Leaf", ["id", "origin"]), ("Root", ["origin"])] ∧
      run.invalid = ["shop.Middle", "shop.Middle"] ∧ run'.invalid = [] ∧
      run.graph = run'.graph ∧ run.artifacts = run'.artifacts := by
  have hsplit := Run.process_unmarked Sample.broken Sample.failing_broken .default rfl "gen"
  exact ⟨by decide +kernel, by decide +kernel, by decide +kernel, hsplit.1, hsplit.2.1⟩

end Metamodel
