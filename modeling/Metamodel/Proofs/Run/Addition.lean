import Metamodel.Proofs.Graph.Restriction
import Metamodel.Proofs.Run.Binding
import Metamodel.Proofs.Run.Isolation
import Metamodel.Proofs.Run.ToMany

/-!
# Additional declarations

A declaration whose name the others do not use changes nothing about them (`process_added`). It takes
no other candidate's place, the walk of no other type leads to it, and no property refers to it. So the
others are built alike with and without it, and their graph, findings and artifacts are part of those
of all declarations.
-/

namespace Metamodel.Run

/-- A source of declarations, and one more declaration somewhere among them. -/
structure Addition where
  before : List Declaration
  added : Declaration
  after : List Declaration
  catalog : Catalog
  members : Declaration → Except SupplyFailure (List Member)

namespace Addition

/-- The source without the additional declaration. -/
def source (x : Addition) : DeclarationSource :=
  ⟨x.before ++ x.after, x.catalog, x.members⟩

/-- The source with the additional declaration. -/
def extended (x : Addition) : DeclarationSource :=
  ⟨x.before ++ x.added :: x.after, x.catalog, x.members⟩

/-- Whether a name is another one than that of the additional declaration. -/
def keeps (x : Addition) (name : String) : Bool :=
  x.added.knownName? != some name

/-- The other declarations do not use the name of the additional one: none has it, no supertype has
it, and neither has the type of a member or an argument of that type. -/
structure Unrelated (x : Addition) : Prop where
  names : ∀ d ∈ x.source.declarations, ∀ name, d.knownName? = some name → x.keeps name = true
  supers : ∀ d ∈ x.source.declarations, ∀ ref ∈ d.supers, x.keeps ref.name = true
  types : ∀ d ∈ x.source.declarations, ∀ members, x.members d = .ok members → ∀ m ∈ members,
    ∀ ref ∈ m.type :: m.type.args, x.keeps ref.name = true

/-- The additional declaration, if it has a marker. -/
def marked (x : Addition) (marker : AnnotationKind) : List Declaration :=
  if hasMark (x.source.typeMarks x.added) marker then [x.added] else []

variable {x : Addition}

theorem eq_of_mem_marked {marker : AnnotationKind} {d : Declaration} (h : d ∈ x.marked marker) :
    d = x.added := by
  unfold marked at h
  split at h
  · exact List.mem_singleton.1 h
  · cases h

theorem mem_extended_iff {d : Declaration} :
    d ∈ x.extended.declarations ↔ d = x.added ∨ d ∈ x.source.declarations := by
  simp only [extended, source, List.mem_append, List.mem_cons]
  exact or_left_comm

theorem keeps_eq_false_iff {name : String} :
    x.keeps name = false ↔ x.added.knownName? = some name := by
  rw [keeps, bne_eq_false_iff_eq]

/-! ## Ancestry -/

/-- A reference to another name finds the same heading. -/
theorem heading?_extended {ref : TypeRef} (hkeep : x.keeps ref.name = true) :
    x.source.heading? ref = x.extended.heading? ref := by
  have hskip : (x.added.heading?.toList.find? (·.name == ref.name)) = none := by
    refine List.find?_eq_none.2 fun h hh hname => ?_
    have hany : x.added.heading?.any (·.name == ref.name) = true := by
      rw [Option.mem_toList.1 hh]
      exact hname
    rw [Declaration.any_heading?] at hany
    rw [keeps_eq_false_iff.2 (eq_of_beq hany)] at hkeep
    cases hkeep
  have hheadings : x.extended.headings =
      x.before.filterMap Declaration.heading? ++ x.added.heading?.toList ++
        x.after.filterMap Declaration.heading? := by
    unfold DeclarationSource.headings extended
    rw [List.filterMap_append, List.append_assoc]
    cases hadded : x.added.heading? with
    | none => rw [List.filterMap_cons_none hadded]; rfl
    | some h => rw [List.filterMap_cons_some hadded]; rfl
  rw [DeclarationSource.heading?_eq_find?, DeclarationSource.heading?_eq_find?, hheadings,
    List.find?_append, List.find?_append, hskip, Option.or_none, ← List.find?_append,
    ← List.filterMap_append]
  rfl

section

variable (h : x.Unrelated)

include h

theorem ancestry_eq {d : Declaration} (hd : d ∈ x.source.declarations) (own : String) :
    Ancestry.of x.source d own = Ancestry.of x.extended d own := by
  refine Ancestry.of_congr (fun ref => x.keeps ref.name = true) (fun _ => heading?_extended) ?_ rfl
    (h.supers d hd) own
  intro ref heading _ hheading
  obtain ⟨d', hd', -, -, hsupers⟩ := DeclarationSource.heading?_eq_some_iff.1 hheading
  rw [← hsupers]
  exact h.supers d' (Ancestry.mem_declarations_of_declarationOf? hd')

theorem keeps_of_mem_ancestors {d : Declaration} {own name : String}
    (hname : name ∈ (Ancestry.of x.source d own).ancestors) : x.keeps name = true := by
  obtain ⟨d', hd', hknown⟩ := Ancestry.exists_of_mem_ancestors hname
  exact h.names d' hd' name hknown

end

/-! ## Candidates -/

/-- A declaration of another name is taken to the candidates with the additional one among them
exactly when it is taken to those without. -/
theorem addCandidate_insert {d y : Declaration} (front back : List Declaration)
    (hne : ∀ name, y.knownName? = some name → d.knownName? ≠ some name) :
    (addCandidate (front ++ back) y = front ++ back ∧
      addCandidate (front ++ d :: back) y = front ++ d :: back) ∨
    (addCandidate (front ++ back) y = front ++ (back ++ [y]) ∧
      addCandidate (front ++ d :: back) y = front ++ d :: (back ++ [y])) := by
  unfold addCandidate
  cases hname : y.knownName? with
  | none => exact Or.inr (by simp)
  | some name =>
    have hd : (d.knownName? == some name) = false := beq_false_of_ne (hne name hname)
    have hany : (front ++ d :: back).any (·.knownName? == some name) =
        (front ++ back).any (·.knownName? == some name) := by
      rw [List.any_append, List.any_cons, hd, Bool.false_or, List.any_append]
    simp only [hany]
    by_cases hfound : (front ++ back).any (·.knownName? == some name) = true
    · exact Or.inl (by simp only [hfound, if_true, and_self])
    · exact Or.inr (by simp [hfound])

theorem foldl_addCandidate_insert {d : Declaration} {ys : List Declaration}
    (hne : ∀ y ∈ ys, ∀ name, y.knownName? = some name → d.knownName? ≠ some name)
    (front back : List Declaration) :
    ∃ more, ys.foldl addCandidate (front ++ back) = front ++ more ∧
      ys.foldl addCandidate (front ++ d :: back) = front ++ d :: more := by
  induction ys generalizing back with
  | nil => exact ⟨back, rfl, rfl⟩
  | cons y ys ih =>
    rw [List.foldl_cons, List.foldl_cons]
    have hrest := ih fun z hz => hne z (List.mem_cons_of_mem y hz)
    rcases addCandidate_insert front back (hne y List.mem_cons_self) with
      ⟨hwithout, hwith⟩ | ⟨hwithout, hwith⟩
    · rw [hwithout, hwith]
      exact hrest back
    · rw [hwithout, hwith]
      exact hrest (back ++ [y])

section

variable (h : x.Unrelated)

include h

/-- The candidates are the other ones, and the additional declaration somewhere among them if it has
the marker. -/
theorem exists_candidates (marker : AnnotationKind) :
    ∃ front back, candidates x.source marker = front ++ back ∧
      candidates x.extended marker = front ++ x.marked marker ++ back := by
  have hne (y : Declaration) (hy : y ∈ x.source.declarations) (name : String)
      (hname : y.knownName? = some name) : x.added.knownName? ≠ some name :=
    bne_iff_ne.1 (h.names y hy name hname)
  have hmarks : x.extended.typeMarks = x.source.typeMarks := rfl
  unfold candidates
  rw [hmarks]
  show ∃ front back,
    List.foldl addCandidate [] ((x.before ++ x.after).filter _) = front ++ back ∧
      List.foldl addCandidate [] ((x.before ++ x.added :: x.after).filter _) =
        front ++ x.marked marker ++ back
  rw [List.filter_append, List.filter_append, List.foldl_append, List.foldl_append,
    List.filter_cons]
  generalize hfound : List.foldl addCandidate [] (x.before.filter _) = found
  by_cases hmark : hasMark (x.source.typeMarks x.added) marker = true
  · have hfresh : addCandidate found x.added = found ++ [x.added] := by
      refine addCandidate_of_forall_ne fun name hname other hother hsame => ?_
      rw [← hfound] at hother
      have hbefore := (mem_of_mem_foldl_addCandidate hother).resolve_left List.not_mem_nil
      exact hne other (List.mem_append_left _ (List.mem_of_mem_filter hbefore)) name hsame hname
    have hafter (y : Declaration) (hy : y ∈ x.after.filter fun d =>
        hasMark (x.source.typeMarks d) marker) : y ∈ x.source.declarations :=
      List.mem_append_right _ (List.mem_of_mem_filter hy)
    obtain ⟨more, hwithout, hwith⟩ :=
      foldl_addCandidate_insert (fun y hy => hne y (hafter y hy)) found []
    rw [List.append_nil] at hwithout
    refine ⟨found, more, hwithout, ?_⟩
    rw [if_pos hmark, List.foldl_cons, hfresh, hwith, marked, if_pos hmark, List.append_assoc,
      List.singleton_append]
  · rw [if_neg hmark, marked, if_neg hmark]
    exact ⟨_, [], (List.append_nil _).symm, by rw [List.append_nil, List.append_nil]⟩

/-- What the candidates give, apart from what the additional declaration does. -/
theorem filterMap_candidates {f : Declaration → Option Entity}
    (hname : ∀ d e, f d = some e → d.knownName? = some e.qualifiedName) (marker : AnnotationKind) :
    (candidates x.source marker).filterMap f =
      ((candidates x.extended marker).filterMap f).filter fun e => x.keeps e.qualifiedName := by
  obtain ⟨front, back, hwithout, hwith⟩ := exists_candidates h marker
  have hkept : ((candidates x.source marker).filterMap f).filter (fun e => x.keeps e.qualifiedName) =
      (candidates x.source marker).filterMap f := by
    refine List.filter_eq_self.2 fun e he => ?_
    obtain ⟨d, hd, hde⟩ := List.mem_filterMap.1 he
    exact h.names d (mem_declarations_of_mem_candidates hd) _ (hname d e hde)
  have hadded : ((x.marked marker).filterMap f).filter (fun e => x.keeps e.qualifiedName) = [] := by
    refine List.filter_eq_nil_iff.2 fun e he hkeep => ?_
    obtain ⟨d, hd, hde⟩ := List.mem_filterMap.1 he
    obtain rfl := eq_of_mem_marked hd
    rw [keeps_eq_false_iff.2 (hname _ e hde)] at hkeep
    cases hkeep
  rw [hwith, List.filterMap_append, List.filterMap_append, List.filter_append, List.filter_append,
    hadded, List.append_nil, ← List.filter_append, ← List.filterMap_append, ← hwithout, hkept]

/-! ## Builds -/

variable (config : Config)

theorem buildEntity_eq_of_ancestor? {kind : EntityKind}
    (hlookup : kind = .entity → ∀ name, x.keeps name = true →
      (build x.source config).context.ancestor? name =
        (build x.extended config).context.ancestor? name)
    {d : Declaration} (hd : d ∈ x.source.declarations) :
    buildEntity (build x.source config).context d kind =
      buildEntity (build x.extended config).context d kind := by
  refine buildEntity_congr ?_ ?_ ?_ (fun _ own => ?_) fun hkind own name hname => ?_
  · rw [source_build, source_build]
    rfl
  · rw [config_build, config_build]
  · rw [source_build, source_build]
    rfl
  · rw [source_build, source_build]
    exact ancestry_eq h hd own
  · rw [source_build, ← ancestry_eq h hd] at hname
    exact hlookup hkind name (keeps_of_mem_ancestors h hname)

theorem builtOf_eq_of_ancestor? {kind : EntityKind}
    (hlookup : kind = .entity → ∀ name, x.keeps name = true →
      (build x.source config).context.ancestor? name =
        (build x.extended config).context.ancestor? name) :
    builtOf x.source config kind =
      (builtOf x.extended config kind).filter fun e => x.keeps e.qualifiedName := by
  have hentity (d : Declaration) (hd : d ∈ candidates x.source kind.marker) :
      entity? (build x.source config).context kind d =
        entity? (build x.extended config).context kind d := by
    rw [entity?, buildEntity_eq_of_ancestor? h config hlookup (mem_declarations_of_mem_candidates hd),
      entity?]
  unfold builtOf builtIn
  rw [List.filterMap_congr hentity]
  exact filterMap_candidates h (fun _ _ => knownName?_of_entity?) kind.marker

/-- The registries find the same ancestors under other names. -/
theorem ancestor?_eq {name : String} (hkeep : x.keeps name = true) :
    (build x.source config).context.ancestor? name =
      (build x.extended config).context.ancestor? name := by
  refine Context.ancestor?_congr fun kind hkind => ?_
  rw [get?_build, get?_build, builtOf_eq_of_ancestor? h config fun he => absurd he hkind]
  exact find?_filter_key x.keeps hkeep _

/-- The other declarations are built alike. -/
theorem buildEntity_eq (kind : EntityKind) {d : Declaration} (hd : d ∈ x.source.declarations) :
    buildEntity (build x.source config).context d kind =
      buildEntity (build x.extended config).context d kind :=
  buildEntity_eq_of_ancestor? h config (fun _ _ => ancestor?_eq h config) hd

/-- What is built without the additional declaration is what is built of other names. -/
theorem builtOf_eq (kind : EntityKind) :
    builtOf x.source config kind =
      (builtOf x.extended config kind).filter fun e => x.keeps e.qualifiedName :=
  builtOf_eq_of_ancestor? h config fun _ _ => ancestor?_eq h config

/-! ## Findings of the builds -/

theorem candidates_sublist (marker : AnnotationKind) :
    (candidates x.source marker).Sublist (candidates x.extended marker) := by
  obtain ⟨front, back, hwithout, hwith⟩ := exists_candidates h marker
  rw [hwithout, hwith]
  exact (List.sublist_append_left front _).append_right back

theorem candidates_perm (marker : AnnotationKind) :
    (candidates x.extended marker).Perm (candidates x.source marker ++ x.marked marker) := by
  obtain ⟨front, back, hwithout, hwith⟩ := exists_candidates h marker
  rw [hwithout, hwith, List.append_assoc, List.append_assoc]
  exact List.perm_append_comm.append_left front

theorem diagnostics_source : (build x.source config).diagnostics =
    kinds.flatMap fun kind => (candidates x.source kind.marker).flatMap
      (findings (build x.extended config).context kind) := by
  rw [diagnostics_build]
  refine List.flatMap_congr fun kind _ => List.flatMap_congr fun d hd => ?_
  rw [findings, buildEntity_eq h config kind (mem_declarations_of_mem_candidates hd), findings]

/-! ## Graphs -/

variable (outDir : String)

/-- The graph without the additional declaration is part of the one with it. -/
theorem isPart_graph :
    Graph.IsPart x.keeps (process x.source config outDir).graph
      (process x.extended config outDir).graph := by
  rw [graph_process, graph_process, builtOf_eq h, builtOf_eq h, builtOf_eq h]
  refine Graph.isPart_assemble fun e he hkeep p hp ref href => ?_
  obtain ⟨kind, hkind⟩ := exists_kind_of_mem he
  have hother : e ∈ builtOf x.source config kind := by
    rw [builtOf_eq h]
    exact List.mem_filter.2 ⟨hkind, hkeep⟩
  obtain ⟨d, hd, members, m, hmembers, hm, htype⟩ := exists_type hother hp
  refine h.types d hd members hmembers m hm ref ?_
  rw [← htype]
  have htarget := Graph.relationshipTarget?_eq_some_iff.1 href
  split at htarget
  · rw [htarget]
    exact List.mem_cons_of_mem _ List.mem_cons_self
  · rw [htarget]
    exact List.mem_cons_self

/-- What lies outside of the part has been built from the additional declaration. -/
theorem packageName_of_keeps_eq_false {e : Entity}
    (he : e ∈ (process x.extended config outDir).graph.nodes)
    (hkeep : x.keeps e.qualifiedName = false) : e.packageName = x.added.packageName := by
  obtain ⟨d, b, hd, rfl, hb⟩ := exists_buildEntity_of_mem_builtOf (mem_builtOf_kind he)
  obtain ⟨members, hbuilt⟩ := isBuilt_of_buildEntity hb
  rcases mem_extended_iff.1 (mem_declarations_of_mem_candidates hd) with rfl | hother
  · exact (names_of_buildEntity hb).1
  · rw [h.names d hother _ hbuilt.named] at hkeep
    cases hkeep

/-- The nodes of the part are reported alike in both graphs. -/
theorem validate_source :
    (process x.source config outDir).graph.validate =
      ((process x.extended config outDir).graph.nodes.filter fun e =>
        x.keeps e.qualifiedName).flatMap (process x.extended config outDir).graph.nodeFindings := by
  have hnodes := (isPart_graph h config outDir).nodes
  rw [validate_process, ← hnodes]
  refine List.flatMap_congr fun e he => ?_
  have he' : e ∈ (process x.extended config outDir).graph.nodes := by
    rw [hnodes] at he
    exact List.mem_of_mem_filter he
  unfold Graph.nodeFindings
  rw [toManyNotCollection_process he, toManyNotCollection_process he']

end

/-! ## Runs -/

/-- The labels under which the additional declaration is invalid. -/
def addedLabels (x : Addition) : List String :=
  kinds.flatMap fun kind => (x.marked kind.marker).flatMap (invalidLabels x.extended kind)

/-- The findings about the additional declaration: those of its builds, and those about its node. -/
def addedFindings (x : Addition) (config : Config) (outDir : String) : List Diagnostic :=
  (kinds.flatMap fun kind =>
    (x.marked kind.marker).flatMap (findings (build x.extended config).context kind)) ++
  ((process x.extended config outDir).graph.nodes.filter fun e =>
    !x.keeps e.qualifiedName).flatMap (process x.extended config outDir).graph.nodeFindings

section

variable (h : x.Unrelated) (config : Config) (outDir : String)

include h

theorem invalid_process_added :
    (process x.source config outDir).invalid.Sublist (process x.extended config outDir).invalid ∧
      (process x.extended config outDir).invalid.Perm
        ((process x.source config outDir).invalid ++ x.addedLabels) := by
  have hlabels : invalidLabels x.source = invalidLabels x.extended := rfl
  rw [invalid_process, invalid_process, invalid_build, invalid_build, hlabels]
  exact ⟨flatMap_flatMap_sublist kinds (fun kind => candidates_sublist h kind.marker) _,
    flatMap_flatMap_perm kinds (fun kind => candidates_perm h kind.marker) _⟩

theorem diagnostics_process_added :
    (process x.source config outDir).diagnostics.Sublist
        (process x.extended config outDir).diagnostics ∧
      (process x.extended config outDir).diagnostics.Perm
        ((process x.source config outDir).diagnostics ++ x.addedFindings config outDir) := by
  rw [diagnostics_process, diagnostics_process, validate_source h, validate_process,
    diagnostics_source h, diagnostics_build]
  constructor
  · exact (flatMap_flatMap_sublist kinds (fun kind => candidates_sublist h kind.marker) _).append
      (List.filter_sublist.flatMap _)
  · have hbuild := flatMap_flatMap_perm kinds (fun kind => candidates_perm h kind.marker)
      (findings (build x.extended config).context)
    have hnodes := (List.filter_append_perm (fun e : Entity => x.keeps e.qualifiedName)
      (process x.extended config outDir).graph.nodes).symm.flatMap_right
        (process x.extended config outDir).graph.nodeFindings
    rw [List.flatMap_append] at hnodes
    refine (hbuild.append hnodes).trans ?_
    rw [addedFindings, List.append_assoc, List.append_assoc]
    refine List.Perm.append_left _ ?_
    rw [← List.append_assoc, ← List.append_assoc]
    exact List.perm_append_comm.append_right _

end

end Addition

/-- A declaration with a name that no other declaration uses changes nothing about these in a run that
makes artifacts in spite of errors. Without it the nodes, edges, labels and findings are the same in
the same order, less those that come from it, and so are the artifacts, apart from the registry of its
package. -/
theorem process_added (x : Addition) (h : x.Unrelated) (config : Config)
    (halways : config.generateAlways = true) (outDir : String) :
    let run := process x.source config outDir
    let run' := process x.extended config outDir
    run.graph.nodes = run'.graph.nodes.filter (fun e => x.keeps e.qualifiedName) ∧
      run.graph.edges = run'.graph.edges.filter (fun edge => x.keeps edge.source.qualifiedName) ∧
      run.artifacts.filter (!·.isRegistryOf x.added.packageName) =
        run'.artifacts.filter (fun a =>
          !a.isRegistryOf x.added.packageName && a.entity?.all x.keeps) ∧
      run.invalid.Sublist run'.invalid ∧ run'.invalid.Perm (run.invalid ++ x.addedLabels) ∧
      run.diagnostics.Sublist run'.diagnostics ∧
      run'.diagnostics.Perm (run.diagnostics ++ x.addedFindings config outDir) := by
  intro run run'
  have hpart := Addition.isPart_graph h config outDir
  obtain ⟨hinvalid, hlabels⟩ := Addition.invalid_process_added h config outDir
  obtain ⟨hdiagnostics, hfindings⟩ := Addition.diagnostics_process_added h config outDir
  refine ⟨hpart.nodes, hpart.edges, ?_, hinvalid, hlabels, hdiagnostics, hfindings⟩
  rw [artifacts_process, artifacts_process, emitted_process_of_generateAlways halways,
    emitted_process_of_generateAlways halways, if_pos rfl, if_pos rfl]
  exact hpart.filter_artifacts
    (fun e he => Addition.packageName_of_keeps_eq_false h config outDir he) _

end Metamodel.Run

/-! ## A depot among deliveries -/

namespace Metamodel

namespace Sample

/-- A type that inherits from deliveries and is related to an address, and that has no key. -/
def depot : Run.Addition where
  before := [delivery [reference "buyer" "people.Address"]]
  added := type .class "Depot" ["Entity"] ["Delivery"] [reference "site" "people.Address"]
  after := [address "people"]
  catalog := .create true
  members := fun d => .ok (d.members.getD [])

theorem unrelated_depot : depot.Unrelated where
  names d hd name hname := by
    have hall : (depot.source.declarations.all fun d => d.knownName?.all depot.keeps) = true := by
      decide +kernel
    have hd := List.all_eq_true.1 hall d hd
    rwa [hname] at hd
  supers := by decide +kernel
  types d hd members hmembers := by
    cases hmembers
    revert d
    decide +kernel

end Sample

namespace Run

/-- The depot adds a node, a relationship, a finding and its files, and nothing else. -/
theorem process_depot :
    let run := process Sample.depot.source .default "generated"
    let run' := process Sample.depot.extended .default "generated"
    run'.graph.edges.map (fun edge => (edge.source.qualifiedName, edge.target.qualifiedName)) =
        [("shop.Delivery", "people.Address"), ("shop.Depot", "people.Address")] ∧
      run.graph.edges =
        run'.graph.edges.filter (fun edge => Sample.depot.keeps edge.source.qualifiedName) ∧
      run.artifacts.filter (!·.isRegistryOf "shop") =
        run'.artifacts.filter (fun a =>
          !a.isRegistryOf "shop" && a.entity?.all Sample.depot.keeps) ∧
      (Sample.depot.addedFindings .default "generated").map (·.code) = [.missingKey] ∧
      run'.diagnostics.Perm
        (run.diagnostics ++ Sample.depot.addedFindings .default "generated") := by
  obtain ⟨-, hedges, hartifacts, -, -, -, hdiagnostics⟩ :=
    process_added Sample.depot Sample.unrelated_depot .default rfl "generated"
  exact ⟨by decide +kernel, hedges, hartifacts, by decide +kernel, hdiagnostics⟩

end Run

end Metamodel
