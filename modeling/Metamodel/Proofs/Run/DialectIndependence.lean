import Metamodel.Proofs.Run.Agreement
import Metamodel.Proofs.Run.Inheritance
import Metamodel.Proofs.Run.Renaming

/-!
# The vocabulary does not show

A run gives the same whether annotations are written under their native names or under the aliases
of the standard vocabulary, each occurrence as it likes (`process_renamed`): only a message about
an annotation that refers to an unresolved type tells the name that is written. Both runs are
compared with the run on the same declarations in native terms.
-/

namespace Metamodel

open Catalog (AreAliases nativeName)

/-- The findings are the same, but for the name of an annotation that refers to an unresolved
type: it may be the alias. -/
inductive Diagnostic.Renamed : Diagnostic → Diagnostic → Prop
  | same (x : Diagnostic) : Renamed x x
  | reference {name name' : String} (h : AreAliases name name') (rest : String)
      (entity : Option String) (location : Option Location) :
      Renamed
        ⟨.unresolvedAnnotationReference, .error, name ++ "." ++ rest, entity, none, location⟩
        ⟨.unresolvedAnnotationReference, .error, name' ++ "." ++ rest, entity, none, location⟩

theorem Diagnostic.hasErrors_renamed {xs ys : List Diagnostic}
    (h : List.Forall₂ Diagnostic.Renamed xs ys) : hasErrors xs = hasErrors ys := by
  unfold hasErrors
  induction h with
  | nil => rfl
  | cons hxy _ ih =>
    rw [List.any_cons, List.any_cons, ih]
    cases hxy <;> rfl

namespace Run

/-! ## Candidates -/

theorem addCandidate_toNative (found : List Declaration) (d : Declaration) :
    addCandidate (found.map Declaration.toNative) d.toNative =
      (addCandidate found d).map Declaration.toNative := by
  have hknown : d.toNative.knownName? = d.knownName? := rfl
  have happend : found.map Declaration.toNative ++ [d.toNative] =
      (found ++ [d]).map Declaration.toNative := by
    rw [List.map_append]
    rfl
  have hany (name : String) : ((found.map Declaration.toNative).any (·.knownName? == some name)) =
      found.any (·.knownName? == some name) := by
    rw [List.any_map]
    rfl
  -- native terms keep the names, by which alone candidates are told apart
  unfold addCandidate
  rw [hknown]
  cases d.knownName? with
  | none => exact happend
  | some name =>
    simp only [hany]
    split
    · rfl
    · exact happend

theorem foldl_addCandidate_toNative (found ds : List Declaration) :
    (ds.map Declaration.toNative).foldl addCandidate (found.map Declaration.toNative) =
      (ds.foldl addCandidate found).map Declaration.toNative := by
  induction ds generalizing found with
  | nil => rfl
  | cons d ds ih =>
    rw [List.map_cons, List.foldl_cons, List.foldl_cons, addCandidate_toNative, ih]

theorem toOption_mapError {ε ε' α : Type} (f : ε → ε') (x : Except ε α) :
    (x.mapError f).toOption = x.toOption := by
  cases x <;> rfl

section Native

variable {s s' : DeclarationSource} (h : s.IsNative s') (config : Config)

include h

theorem candidates_toNative (marker : AnnotationKind) :
    candidates s' marker = (candidates s marker).map Declaration.toNative := by
  unfold candidates
  rw [h.declarations, List.filter_map]
  have hmarked : ((fun d => hasMark (s'.typeMarks d) marker) ∘ Declaration.toNative) =
      fun d => hasMark (s.typeMarks d) marker := by
    funext d
    show hasMark (s'.typeMarks d.toNative) marker = _
    rw [typeMarks_toNative h.catalog h.catalog', hasMark_toNative]
  rw [hmarked]
  exact foldl_addCandidate_toNative [] _

/-! ## Builds -/

theorem buildEntity_native_of_ancestor? {kind : EntityKind}
    (hlookup : kind = .entity →
      (build s' config).context.ancestor? = (build s config).context.ancestor?)
    (d : Declaration) :
    buildEntity (build s' config).context d.toNative kind =
      (buildEntity (build s config).context d kind).mapError BuildError.toNative := by
  refine h.buildEntity_toNative (source_build s config) (source_build s' config) ?_ hlookup d
  rw [config_build, config_build]

theorem builtOf_native_of_ancestor? {kind : EntityKind}
    (hlookup : kind = .entity →
      (build s' config).context.ancestor? = (build s config).context.ancestor?) :
    builtOf s' config kind = builtOf s config kind := by
  unfold builtOf builtIn
  rw [candidates_toNative h, List.filterMap_map]
  refine List.filterMap_congr fun d _ => ?_
  show entity? _ kind d.toNative = _
  unfold entity?
  rw [buildEntity_native_of_ancestor? h config hlookup d, toOption_mapError]

theorem ancestor?_native :
    (build s' config).context.ancestor? = (build s config).context.ancestor? := by
  -- ancestors are no entities, so they are built without looking for ancestors themselves
  refine funext fun name => Context.ancestor?_congr fun kind hkind => ?_
  have hbuilt := builtOf_native_of_ancestor? h config fun he : kind = .entity => absurd he hkind
  rw [get?_build, get?_build, hbuilt]

/-- At the end of both runs a declaration is built alike. -/
theorem buildEntity_native (kind : EntityKind) (d : Declaration) :
    buildEntity (build s' config).context d.toNative kind =
      (buildEntity (build s config).context d kind).mapError BuildError.toNative :=
  buildEntity_native_of_ancestor? h config (fun _ => ancestor?_native h config) d

/-- Both runs build the same types. -/
theorem builtOf_native (kind : EntityKind) : builtOf s' config kind = builtOf s config kind :=
  builtOf_native_of_ancestor? h config fun _ => ancestor?_native h config

end Native

/-! ## Two ways of writing

Two sources with the same declarations in native terms. -/

/-- A candidate is invalid exactly when its build fails. -/
theorem isSome_obstacle? (c : Context) (kind : EntityKind) (d : Declaration) :
    (c.source.obstacle? kind d).isSome = (buildEntity c d kind).toOption.isNone := by
  cases hb : buildEntity c d kind with
  | error e =>
    rw [buildEntity_eq_error_iff.1 hb]
    rfl
  | ok b =>
    cases ho : c.source.obstacle? kind d with
    | none => rfl
    | some e =>
      rw [buildEntity_of_obstacle ho] at hb
      cases hb

theorem flatMap_eq_of_forall₂ {α β γ : Type} {R : α → β → Prop} {f : α → List γ} {g : β → List γ}
    (hfg : ∀ x y, R x y → f x = g y) {xs : List α} {ys : List β} (h : List.Forall₂ R xs ys) :
    xs.flatMap f = ys.flatMap g := by
  induction h with
  | nil => rfl
  | cons hxy _ ih => rw [List.flatMap_cons, List.flatMap_cons, hfg _ _ hxy, ih]

theorem label_eq_of_toNative {d d' : Declaration} (hd : d.toNative = d'.toNative) :
    d.label = d'.label := by
  have hlabel : d.toNative.label = d'.toNative.label := by rw [hd]
  exact hlabel

theorem source_eq_of_toNative {d d' : Declaration} (hd : d.toNative = d'.toNative) :
    d.source = d'.source := by
  have hsource : d.toNative.source = d'.toNative.source := by rw [hd]
  exact hsource

/-- The reasons for which a declaration fails are told alike. -/
theorem rejection_renamed {d d' : Declaration} (hd : d.toNative = d'.toNative) {e e' : BuildError}
    (he : e.toNative = e'.toNative) : Diagnostic.Renamed (rejection d e) (rejection d' e') := by
  cases e with
  | missingName kind simpleName location =>
    cases e' with
    | missingName kind' simpleName' location' =>
      cases he
      exact .same _
    | unresolvedReference => cases he
    | supply => cases he
  | unresolvedReference mark key entity type location =>
    cases e' with
    | missingName => cases he
    | unresolvedReference mark' key' entity' type' location' =>
      -- the one reason that names an annotation, and in native terms the names are equal
      obtain ⟨hmark, rfl, rfl, rfl, rfl⟩ := BuildError.unresolvedReference.inj he
      rcases Catalog.nativeName_eq_iff.1 hmark with rfl | halias
      · exact .same _
      · have hreference := Diagnostic.Renamed.reference halias
          (key ++ " of " ++ entity ++ " refers to unresolved type " ++ type) (some entity) location
        simp only [← String.append_assoc] at hreference
        exact hreference
    | supply => cases he
  | supply failure =>
    cases e' with
    | missingName => cases he
    | unresolvedReference => cases he
    | supply failure' =>
      cases he
      unfold rejection
      rw [label_eq_of_toNative hd, source_eq_of_toNative hd]
      exact .same _

section Pair

variable {s₁ s₂ n : DeclarationSource} (h₁ : s₁.IsNative n) (h₂ : s₂.IsNative n) (config : Config)

include h₁ h₂

theorem candidates_renamed (marker : AnnotationKind) :
    List.Forall₂ (fun d d' => d.toNative = d'.toNative) (candidates s₁ marker)
      (candidates s₂ marker) := by
  refine (forall₂_iff_map_eq fun _ _ => Iff.rfl).2 ?_
  rw [← candidates_toNative h₁, candidates_toNative h₂]

theorem mapError_buildEntity_renamed (kind : EntityKind) {d d' : Declaration}
    (hd : d.toNative = d'.toNative) :
    (buildEntity (build s₁ config).context d kind).mapError BuildError.toNative =
      (buildEntity (build s₂ config).context d' kind).mapError BuildError.toNative := by
  rw [← buildEntity_native h₁, ← buildEntity_native h₂, hd]

theorem invalidLabels_renamed (kind : EntityKind) {d d' : Declaration}
    (hd : d.toNative = d'.toNative) : invalidLabels s₁ kind d = invalidLabels s₂ kind d' := by
  have hbuild := congrArg (fun x => x.toOption.isNone)
    (mapError_buildEntity_renamed h₁ h₂ .default kind hd)
  have hobstacle : (s₁.obstacle? kind d).isSome = (s₂.obstacle? kind d').isSome := by
    rw [← source_build s₁ .default, ← source_build s₂ .default, isSome_obstacle?, isSome_obstacle?,
      ← toOption_mapError BuildError.toNative, hbuild, toOption_mapError]
  unfold invalidLabels
  rw [hobstacle, label_eq_of_toNative hd]

theorem findings_renamed (kind : EntityKind) {d d' : Declaration}
    (hd : d.toNative = d'.toNative) :
    List.Forall₂ Diagnostic.Renamed (findings (build s₁ config).context kind d)
      (findings (build s₂ config).context kind d') := by
  have hbuild := mapError_buildEntity_renamed h₁ h₂ config kind hd
  unfold findings
  cases hb : buildEntity (build s₁ config).context d kind with
  | ok b =>
    cases hb' : buildEntity (build s₂ config).context d' kind with
    | ok b' =>
      rw [hb, hb'] at hbuild
      cases hbuild
      exact List.forall₂_same.2 fun x _ => .same x
    | error e' =>
      rw [hb, hb'] at hbuild
      cases hbuild
  | error e =>
    cases hb' : buildEntity (build s₂ config).context d' kind with
    | ok b' =>
      rw [hb, hb'] at hbuild
      cases hbuild
    | error e' =>
      rw [hb, hb'] at hbuild
      exact .cons (rejection_renamed hd (Except.error.inj hbuild)) .nil

theorem graph_process_renamed (outDir : String) :
    (process s₁ config outDir).graph = (process s₂ config outDir).graph := by
  rw [graph_process, graph_process]
  simp only [← builtOf_native h₁, ← builtOf_native h₂]

theorem diagnostics_process_renamed (outDir : String) :
    List.Forall₂ Diagnostic.Renamed (process s₁ config outDir).diagnostics
      (process s₂ config outDir).diagnostics := by
  rw [diagnostics_process, diagnostics_process, graph_process_renamed h₁ h₂, diagnostics_build,
    diagnostics_build]
  have hkinds : List.Forall₂ Eq kinds kinds := List.forall₂_same.2 fun _ _ => rfl
  refine List.rel_append (List.rel_flatMap hkinds ?_) (List.forall₂_same.2 fun x _ => .same x)
  rintro kind _ rfl
  refine List.rel_flatMap (candidates_renamed h₁ h₂ kind.marker) ?_
  intro d d' hd
  exact findings_renamed h₁ h₂ config kind hd

theorem invalid_process_renamed (outDir : String) :
    (process s₁ config outDir).invalid = (process s₂ config outDir).invalid := by
  rw [invalid_process, invalid_process, invalid_build, invalid_build]
  refine List.flatMap_congr fun kind _ => ?_
  refine flatMap_eq_of_forall₂ ?_ (candidates_renamed h₁ h₂ kind.marker)
  intro d d' hd
  exact invalidLabels_renamed h₁ h₂ kind hd

theorem emitted_process_renamed (outDir : String) :
    (process s₁ config outDir).emitted = (process s₂ config outDir).emitted := by
  have herrors := Diagnostic.hasErrors_renamed (diagnostics_process_renamed h₁ h₂ config outDir)
  show (config.generateAlways || !Diagnostic.hasErrors (process s₁ config outDir).diagnostics) =
    (config.generateAlways || !Diagnostic.hasErrors (process s₂ config outDir).diagnostics)
  rw [herrors]

end Pair

/-! ## The vocabularies -/

theorem isNative_ofDeclarations (ds : List Declaration) :
    (DeclarationSource.ofDeclarations ds (.create true)).IsNative
      (.ofDeclarations (ds.map Declaration.toNative) (.create true)) where
  catalog := rfl
  catalog' := rfl
  declarations := rfl
  members d := by
    show Except.ok ((d.members.map (List.map Member.toNative)).getD []) = _
    rw [getD_map_map]
    rfl

/-- With the standard vocabulary recognized, it does not show in graph, labels and artifacts of a
run under which of their names annotations are written. The findings differ in the name of an
annotation that refers to an unresolved type. -/
theorem process_renamed {ds ds' : List Declaration} (h : List.Forall₂ Declaration.Renamed ds ds')
    {config : Config} (hjpa : config.jpa = true) (outDir : String) :
    let written := process (.ofDeclarations ds (.create config.jpa)) config outDir
    let renamed := process (.ofDeclarations ds' (.create config.jpa)) config outDir
    written.graph = renamed.graph ∧ written.invalid = renamed.invalid ∧
      written.emitted = renamed.emitted ∧ written.artifacts = renamed.artifacts ∧
      List.Forall₂ Diagnostic.Renamed written.diagnostics renamed.diagnostics := by
  rw [hjpa]
  have hnative : ds.map Declaration.toNative = ds'.map Declaration.toNative :=
    Declaration.forall₂_renamed_iff.1 h
  have h₁ := isNative_ofDeclarations ds
  have h₂ := isNative_ofDeclarations ds'
  rw [← hnative] at h₂
  refine ⟨graph_process_renamed h₁ h₂ config outDir, invalid_process_renamed h₁ h₂ config outDir,
    emitted_process_renamed h₁ h₂ config outDir, ?_, diagnostics_process_renamed h₁ h₂ config outDir⟩
  rw [artifacts_process, artifacts_process, graph_process_renamed h₁ h₂,
    emitted_process_renamed h₁ h₂]

end Run

/-! ## A model in both vocabularies -/

namespace Sample

/-- A superclass with a value that refers to a type which does not resolve. -/
def legacy (superclass : String) : Declaration :=
  { type .class "Legacy" [] [] [] with
    annotations := some [⟨superclass, some [("by", .type
      ⟨.unresolved, "Missing", none, none, none, none⟩)]⟩] }

/-- The small model under given names for four kinds of annotation. -/
def vocabulary (superclass embeddable key inserted : String) : List Declaration :=
  [order, type .class "Base" [superclass] [] [field "id" [key], callback "saved" [inserted]],
    type .interface "Audited" [embeddable] [] [field "changed" []], legacy superclass]

def native : List Declaration := vocabulary "Superclass" "Embedded" "Key" "PostInsert"

def standard : List Declaration := vocabulary "MappedSuperclass" "Embeddable" "Id" "PostPersist"

theorem renamed_standard : List.Forall₂ Declaration.Renamed native standard :=
  Declaration.forall₂_renamed_iff.2 rfl

end Sample

namespace Run

/-- The only trace is the name in the message about the unresolved type. -/
theorem process_standard :
    let written := process (.ofDeclarations Sample.native (.create true)) .default "generated"
    let renamed := process (.ofDeclarations Sample.standard (.create true)) .default "generated"
    written.graph = renamed.graph ∧ written.artifacts = renamed.artifacts ∧
      written.graph.nodes.map (·.simpleName) = ["Order", "Base", "Audited"] ∧
      (written.diagnostics.map (·.message)).head? =
        some "Superclass.by of shop.Legacy refers to unresolved type Missing" ∧
      (renamed.diagnostics.map (·.message)).head? =
        some "MappedSuperclass.by of shop.Legacy refers to unresolved type Missing" ∧
      List.Forall₂ Diagnostic.Renamed written.diagnostics renamed.diagnostics := by
  intro written renamed
  obtain ⟨hgraph, -, -, hartifacts, hdiagnostics⟩ :=
    @process_renamed _ _ Sample.renamed_standard .default rfl "generated"
  refine ⟨hgraph, hartifacts, ?_, ?_, ?_, hdiagnostics⟩
  · decide +kernel
  · decide +kernel
  · decide +kernel

end Run

end Metamodel
