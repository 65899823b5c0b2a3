import Mathlib.Algebra.BigOperators.Group.List.Basic
import Metamodel.Proofs.Run.Findings

/-!
# The outcome of every candidate

A candidate is registered under its name, or else it is refused with a label and one finding.
The registries, labels and fatal findings of a run are those of the outcomes of its candidates
(`accounts_run`): none is lost, and none is there twice. Since no two candidates of a kind have the
same name, no registry ever meets a name that it holds already (`exists_define`).
-/

namespace Metamodel

/-- No finding about a graph says that a declaration could not be built. -/
theorem Graph.isFatal_of_mem_validate {g : Graph} {f : Diagnostic} (hf : f ∈ g.validate) :
    f.code.isFatal = false := by
  have hnode : ∀ code ∈ nodeCodes, code.isFatal = false := by decide
  rcases List.mem_append.1 hf with hf | hf
  · obtain ⟨e, -, hf⟩ := List.mem_flatMap.1 hf
    exact hnode f.code (code_mem_of_mem_nodeFindings hf)
  · obtain ⟨edge, -, hf⟩ := List.mem_flatMap.1 hf
    rw [code_of_mem_danglingRelationship hf]
    rfl

namespace Run

/-- What becomes of a candidate. -/
inductive Outcome where
  | registered (name : String) (entity : Entity)
  | refused (label : String) (finding : Diagnostic)

namespace Outcome

/-- What is put into the registry of the candidate's kind. -/
def entry? : Outcome → Option (String × Entity)
  | registered name entity => some (name, entity)
  | refused _ _ => none

/-- The label under which the candidate is recorded as invalid. -/
def label? : Outcome → Option String
  | registered _ _ => none
  | refused label _ => some label

/-- The finding that says why the candidate is refused. -/
def finding? : Outcome → Option Diagnostic
  | registered _ _ => none
  | refused _ finding => some finding

end Outcome

/-- The outcome of a candidate that is built in a context. -/
def outcome (c : Context) (kind : EntityKind) (d : Declaration) : Outcome :=
  match buildEntity c d kind with
  | .ok b => .registered b.entity.qualifiedName b.entity
  | .error e => .refused d.label (rejection d e)

/-! ## Single candidates -/

theorem isFatal_rejection (d : Declaration) (e : BuildError) :
    (rejection d e).code.isFatal = true := by
  cases e <;> rfl

theorem severity_rejection (d : Declaration) (e : BuildError) :
    (rejection d e).severity = .error := by
  cases e <;> rfl

/-- A candidate is registered under its own name, as of its kind. -/
theorem of_outcome_registered {c : Context} {kind : EntityKind} {d : Declaration} {name : String}
    {e : Entity} (h : outcome c kind d = .registered name e) :
    d.knownName? = some name ∧ e.qualifiedName = name ∧ e.kind = kind := by
  unfold outcome at h
  cases hb : buildEntity c d kind with
  | error _ =>
    rw [hb] at h
    cases h
  | ok b =>
    rw [hb] at h
    obtain ⟨rfl, rfl⟩ := Outcome.registered.inj h
    obtain ⟨members, hbuilt⟩ := isBuilt_of_buildEntity hb
    exact ⟨hbuilt.named, rfl, hbuilt.kind_eq⟩

/-- A candidate is refused under its label, with an error that says so. -/
theorem of_outcome_refused {c : Context} {kind : EntityKind} {d : Declaration} {label : String}
    {f : Diagnostic} (h : outcome c kind d = .refused label f) :
    label = d.label ∧ f.code.isFatal = true ∧ f.severity = .error := by
  unfold outcome at h
  cases hb : buildEntity c d kind with
  | ok _ =>
    rw [hb] at h
    cases h
  | error e =>
    rw [hb] at h
    obtain ⟨rfl, rfl⟩ := Outcome.refused.inj h
    exact ⟨rfl, isFatal_rejection d e, severity_rejection d e⟩

/-- Of what is found about a candidate, nothing is fatal but the reason for which it is refused. -/
theorem filter_isFatal_findings (c : Context) (kind : EntityKind) (d : Declaration) :
    (findings c kind d).filter (·.code.isFatal) = (outcome c kind d).finding?.toList := by
  unfold findings outcome
  cases hb : buildEntity c d kind with
  | ok b =>
    refine List.filter_eq_nil_iff.2 fun f hf hfatal => ?_
    rw [isFatal_of_buildEntity hb f hf] at hfatal
    cases hfatal
  | error e => exact List.filter_cons_of_pos (isFatal_rejection d e)

theorem invalidLabels_eq (c : Context) (kind : EntityKind) (d : Declaration) :
    invalidLabels c.source kind d = (outcome c kind d).label?.toList := by
  unfold invalidLabels outcome
  cases hb : buildEntity c d kind with
  | ok b =>
    have ho : c.source.obstacle? kind d = none := by
      refine Option.eq_none_iff_forall_ne_some.2 fun e he => ?_
      rw [buildEntity_of_obstacle he] at hb
      cases hb
    rw [ho]
    rfl
  | error e =>
    rw [buildEntity_eq_error_iff.1 hb]
    rfl

/-! ## Counting -/

/-- Each of several outcomes is an entry or a label, and not both. -/
theorem length_entries_add_length_labels (os : List Outcome) :
    (os.filterMap Outcome.entry?).length + (os.filterMap Outcome.label?).length = os.length := by
  induction os with
  | nil => rfl
  | cons o os ih =>
    cases o with
    | registered name e =>
      simp only [List.filterMap_cons, Outcome.entry?, Outcome.label?, List.length_cons]
      omega
    | refused label f =>
      simp only [List.filterMap_cons, Outcome.entry?, Outcome.label?, List.length_cons]
      omega

/-- There is one finding for each label. -/
theorem length_findings_eq_length_labels (os : List Outcome) :
    (os.filterMap Outcome.finding?).length = (os.filterMap Outcome.label?).length := by
  induction os with
  | nil => rfl
  | cons o os ih =>
    cases o with
    | registered name e => exact ih
    | refused label f => exact congrArg (· + 1) ih

/-! ## Definitions -/

/-- What a run has gathered when it comes to a candidate: the kinds in front have been built, and
then the candidates in front. -/
def progressAt (s : DeclarationSource) (config : Config) (earlier : List EntityKind)
    (kind : EntityKind) (front : List Declaration) : Progress :=
  front.foldl (step kind) (earlier.foldl (phase s) ⟨.start s config, [], [], []⟩)

/-- A run goes on from there with the candidate, with those behind it and with the other kinds. -/
theorem build_eq_of_split {s : DeclarationSource} (config : Config)
    {earlier later : List EntityKind} {kind : EntityKind} {front back : List Declaration}
    {d : Declaration} (hkinds : kinds = earlier ++ kind :: later)
    (hcandidates : candidates s kind.marker = front ++ d :: back) :
    build s config = later.foldl (phase s)
      (back.foldl (step kind) (step kind (progressAt s config earlier kind front) d)) := by
  rw [build_eq_foldl_phase, hkinds, List.foldl_append, List.foldl_cons]
  refine congrArg (later.foldl (phase s)) ?_
  rw [phase, hcandidates, List.foldl_append, List.foldl_cons]
  rfl

theorem entries_extendAll_of_notMem (c : Context) (es : EntityKind → List Entity)
    {ks : List EntityKind} {kind : EntityKind} (h : kind ∉ ks) :
    ((c.extendAll es ks).registry kind).entries = (c.registry kind).entries := by
  induction ks generalizing c with
  | nil => rfl
  | cons k ks ih =>
    rw [List.mem_cons, not_or] at h
    refine (ih (c.extend k (es k)) h.2).trans ?_
    rw [c.entries_extend, if_neg h.1]

theorem pairwise_kinds : kinds.Pairwise fun k k' => k ≠ k' ∧ k ≠ .entity := by
  decide

/-- Before a kind is built its registry is empty. -/
theorem entries_earlier (s : DeclarationSource) (config : Config) {earlier later : List EntityKind}
    {kind : EntityKind} (hkinds : kinds = earlier ++ kind :: later) :
    ((earlier.foldl (phase s) ⟨.start s config, [], [], []⟩).context.registry kind).entries =
      [] := by
  have hsplit := pairwise_kinds
  rw [hkinds, List.pairwise_append] at hsplit
  have hempty (k : EntityKind) : ((Context.start s config).registry k).entries = [] := by
    cases k <;> rfl
  have hcontent := congrArg (·.1) (content_foldl_phase s hsplit.1
    (p := ⟨.start s config, [], [], []⟩) rfl fun k _ => hempty k)
  have hnew : kind ∉ earlier := fun hmem =>
    (hsplit.2.2 kind hmem kind List.mem_cons_self).1 rfl
  refine (congrArg (fun c : Context => (c.registry kind).entries) hcontent).trans ?_
  exact (entries_extendAll_of_notMem _ _ hnew).trans (hempty kind)

/-- Whatever names repeat among the declarations, the definition of a built candidate succeeds. -/
theorem exists_define {s : DeclarationSource} (config : Config)
    {earlier later : List EntityKind} {kind : EntityKind} {front back : List Declaration}
    {d : Declaration} (hkinds : kinds = earlier ++ kind :: later)
    (hcandidates : candidates s kind.marker = front ++ d :: back) {b : Built}
    (hb : buildEntity (progressAt s config earlier kind front).context d kind = .ok b) :
    ∃ c, (progressAt s config earlier kind front).context.define kind b.entity = .ok c := by
  obtain ⟨_, hbuilt⟩ := isBuilt_of_buildEntity hb
  have hnames := nodup_candidates s kind.marker
  rw [hcandidates, List.filterMap_append, List.filterMap_cons_some hbuilt.named] at hnames
  have hfront := List.nodup_append.1 hnames
  have hhas (name : String) :
      ((earlier.foldl (phase s) ⟨.start s config, [], [], []⟩).context.registry kind).has name =
        false := by
    rw [Registry.has, Registry.get?, entries_earlier s config hkinds]
    rfl
  have hcontent := congrArg (·.1) (content_foldl_step hfront.1 fun _ _ name _ => hhas name)
  have hfresh : ((progressAt s config earlier kind front).context.registry kind).has
      b.entity.qualifiedName = false := by
    have hcontext : (progressAt s config earlier kind front).context = _ := hcontent
    rw [hcontext]
    refine has_extend_of_ne (hhas _) fun e he heq => ?_
    -- a candidate in front would have the name of this one
    obtain ⟨d', hd', hentity⟩ := List.mem_filterMap.1 he
    refine hfront.2.2 e.qualifiedName ?_ _ List.mem_cons_self heq
    exact List.mem_filterMap.2 ⟨d', hd', knownName?_of_entity? hentity⟩
  rw [Context.define, Registry.define, hfresh]
  exact ⟨_, rfl⟩

/-! ## The account of a run -/

/-- The outcomes of the candidates of a kind, each in the context in which the run ends. -/
def outcomes (s : DeclarationSource) (config : Config) (kind : EntityKind) : List Outcome :=
  (candidates s kind.marker).map (outcome (build s config).context kind)

/-- A run accounts for its candidates by their outcomes: what is registered and what is refused is
what the outcomes tell, in their order, and no definition fails on the way. -/
structure Accounts (s : DeclarationSource) (config : Config) (outDir : String) : Prop where
  /-- a registered candidate is what its registry has under the candidate's name -/
  registered : ∀ kind, ∀ d ∈ candidates s kind.marker, ∀ name e,
    outcome (build s config).context kind d = .registered name e →
      d.knownName? = some name ∧ e.qualifiedName = name ∧ e.kind = kind ∧
        ((build s config).context.registry kind).get? name = some e
  /-- a refused candidate is recorded under its label, with an error that is fatal to it -/
  refused : ∀ kind, ∀ d ∈ candidates s kind.marker, ∀ label f,
    outcome (build s config).context kind d = .refused label f →
      label = d.label ∧ f.code.isFatal = true ∧ f.severity = .error
  entries : ∀ kind, ((build s config).context.registry kind).entries =
    (outcomes s config kind).filterMap Outcome.entry?
  names : ∀ kind, (((build s config).context.registry kind).entries.map (·.1)).Nodup
  invalid : (process s config outDir).invalid =
    kinds.flatMap fun kind => (outcomes s config kind).filterMap Outcome.label?
  fatal : (process s config outDir).diagnostics.filter (·.code.isFatal) =
    kinds.flatMap fun kind => (outcomes s config kind).filterMap Outcome.finding?
  /-- wherever a run comes to a candidate, the registry takes what is built of it -/
  defined : ∀ earlier kind later front d back, kinds = earlier ++ kind :: later →
    candidates s kind.marker = front ++ d :: back →
      build s config = later.foldl (phase s)
        (back.foldl (step kind) (step kind (progressAt s config earlier kind front) d)) ∧
      ∀ b, buildEntity (progressAt s config earlier kind front).context d kind = .ok b →
        ∃ c, (progressAt s config earlier kind front).context.define kind b.entity = .ok c
  /-- the candidates are as many as the registered and the refused ones -/
  size : (build s config).context.superclasses.size + (build s config).context.embeddables.size +
      (build s config).context.entities.size + (process s config outDir).invalid.length =
    (candidates s EntityKind.superclass.marker).length +
      (candidates s EntityKind.embeddable.marker).length +
      (candidates s EntityKind.entity.marker).length
  /-- each label goes with one fatal finding -/
  fatal_length : (process s config outDir).diagnostics.countP (·.code.isFatal) =
    (process s config outDir).invalid.length

theorem entries_eq_outcomes (s : DeclarationSource) (config : Config) (kind : EntityKind) :
    ((build s config).context.registry kind).entries =
      (outcomes s config kind).filterMap Outcome.entry? := by
  rw [entries_build, builtOf, builtIn, List.map_filterMap, outcomes, List.filterMap_map]
  refine List.filterMap_congr fun d _ => ?_
  unfold entity? outcome
  simp only [Function.comp_apply]
  cases buildEntity (build s config).context d kind <;> rfl

theorem invalid_eq_outcomes (s : DeclarationSource) (config : Config) :
    (build s config).invalid =
      kinds.flatMap fun kind => (outcomes s config kind).filterMap Outcome.label? := by
  rw [invalid_build]
  refine List.flatMap_congr fun kind _ => ?_
  have hlabels (d : Declaration) : invalidLabels s kind d =
      (outcome (build s config).context kind d).label?.toList := by
    rw [← invalidLabels_eq, source_build]
  rw [outcomes, List.filterMap_map, List.filterMap_eq_flatMap_toList]
  exact List.flatMap_congr fun d _ => hlabels d

theorem filter_isFatal_diagnostics (s : DeclarationSource) (config : Config) (outDir : String) :
    (process s config outDir).diagnostics.filter (·.code.isFatal) =
      kinds.flatMap fun kind => (outcomes s config kind).filterMap Outcome.finding? := by
  have hgraph : (process s config outDir).graph.validate.filter (·.code.isFatal) = [] := by
    refine List.filter_eq_nil_iff.2 fun f hf hfatal => ?_
    rw [Graph.isFatal_of_mem_validate hf] at hfatal
    cases hfatal
  rw [diagnostics_process, List.filter_append, hgraph, List.append_nil, diagnostics_build,
    List.filter_flatMap]
  refine List.flatMap_congr fun kind _ => ?_
  rw [List.filter_flatMap, outcomes, List.filterMap_map, List.filterMap_eq_flatMap_toList]
  exact List.flatMap_congr fun d _ => filter_isFatal_findings _ kind d

/-- Every run accounts for its candidates, whether or not names repeat and whatever the source fails
to supply. -/
theorem accounts_run (s : DeclarationSource) (config : Config) (outDir : String) :
    Accounts s config outDir where
  registered := by
    intro kind d hd name e h
    obtain ⟨hnamed, hname, hkind⟩ := of_outcome_registered h
    refine ⟨hnamed, hname, hkind, ?_⟩
    rw [get?_build, find?_eq_some_iff (nodup_builtOf kind)]
    have hmem : (name, e) ∈ ((build s config).context.registry kind).entries := by
      rw [entries_eq_outcomes]
      exact List.mem_filterMap.2 ⟨_, List.mem_map.2 ⟨d, hd, h⟩, rfl⟩
    rw [entries_build] at hmem
    obtain ⟨e', he', heq⟩ := List.mem_map.1 hmem
    obtain ⟨-, rfl⟩ := Prod.mk.inj heq
    exact ⟨he', hname⟩
  refused := fun _ _ _ _ _ h => of_outcome_refused h
  entries := entries_eq_outcomes s config
  names := by
    intro kind
    rw [entries_build, List.map_map]
    exact nodup_builtOf kind
  invalid := invalid_eq_outcomes s config
  fatal := filter_isFatal_diagnostics s config outDir
  defined := fun _ _ _ _ _ _ hkinds hcandidates =>
    ⟨build_eq_of_split config hkinds hcandidates, fun _ => exists_define config hkinds hcandidates⟩
  size := by
    have hkind (kind : EntityKind) : ((build s config).context.registry kind).size +
        ((outcomes s config kind).filterMap Outcome.label?).length =
          (candidates s kind.marker).length := by
      rw [Registry.size, entries_eq_outcomes, length_entries_add_length_labels, outcomes,
        List.length_map]
    have hinvalid : (process s config outDir).invalid.length =
        (kinds.flatMap fun kind => (outcomes s config kind).filterMap Outcome.label?).length :=
      congrArg List.length (invalid_eq_outcomes s config)
    simp only [kinds, List.flatMap_cons, List.flatMap_nil, List.length_append, List.append_nil]
      at hinvalid
    have hsuper := hkind .superclass
    have hembeddable := hkind .embeddable
    have hentity := hkind .entity
    simp only [Context.registry] at hsuper hembeddable hentity
    omega
  fatal_length := by
    rw [List.countP_eq_length_filter, filter_isFatal_diagnostics, invalid_process,
      invalid_eq_outcomes, List.length_flatMap, List.length_flatMap]
    refine congrArg List.sum (List.map_congr_left fun kind _ => ?_)
    exact length_findings_eq_length_labels (outcomes s config kind)

end Run

end Metamodel
