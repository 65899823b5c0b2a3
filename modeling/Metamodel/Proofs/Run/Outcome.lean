import Metamodel.Proofs.Run.Build
import Metamodel.Run.Process

/-!
# What a run gathers

No two candidates of a kind have the same name, so no definition is ever refused, and a build of
one kind does not see what has been built of that kind. Hence every candidate is built as if all
others had been built already: the registries, the findings and the labels of a run are those of
its candidates one by one, built in the context in which the run ends (`entries_build`,
`diagnostics_build`, `invalid_build`).
-/

namespace Metamodel

namespace Context

/-- The context with more entities in the registry of a kind. -/
def extend (c : Context) (kind : EntityKind) (es : List Entity) : Context :=
  c.setRegistry kind { c.registry kind with
    entries := (c.registry kind).entries ++ es.map fun e => (e.qualifiedName, e) }

variable (c : Context) (kind : EntityKind) (es : List Entity)

@[simp] theorem source_extend : (c.extend kind es).source = c.source := by
  cases kind <;> rfl

@[simp] theorem config_extend : (c.extend kind es).config = c.config := by
  cases kind <;> rfl

theorem entries_extend (other : EntityKind) :
    ((c.extend kind es).registry other).entries =
      if other = kind then (c.registry kind).entries ++ es.map fun e => (e.qualifiedName, e)
      else (c.registry other).entries := by
  cases kind <;> cases other <;> rfl

theorem ancestor?_extend_entity : (c.extend .entity es).ancestor? = c.ancestor? := rfl

theorem extend_nil : c.extend kind [] = c := by
  cases kind <;> simp [extend, setRegistry, registry]

theorem extend_extend (es' : List Entity) :
    (c.extend kind es).extend kind es' = c.extend kind (es ++ es') := by
  cases kind <;> simp [extend, setRegistry, registry]

/-- A build does not see what has been built of its own kind, nor of entities. -/
theorem buildEntity_extend (d : Declaration) (other : EntityKind)
    (h : other = .entity → kind = .entity) :
    buildEntity (c.extend kind es) d other = buildEntity c d other := by
  refine buildEntity_congr (by simp) (by simp) (by simp) (fun _ _ => by simp) fun hother _ _ _ => ?_
  rw [h hother, ancestor?_extend_entity]

/-- Ancestors are looked up in the registries of superclasses and embeddables only. -/
theorem ancestor?_congr {c c' : Context} {name : String}
    (h : ∀ kind, kind ≠ .entity → (c.registry kind).get? name = (c'.registry kind).get? name) :
    c.ancestor? name = c'.ancestor? name := by
  have hsuper : c.superclasses.get? name = c'.superclasses.get? name := h .superclass (by decide)
  have hembeddable : c.embeddables.get? name = c'.embeddables.get? name :=
    h .embeddable (by decide)
  rw [ancestor?, hsuper, hembeddable, ancestor?]

/-- The context with more entities in the registries of some kinds. -/
def extendAll (c : Context) (es : EntityKind → List Entity) (ks : List EntityKind) : Context :=
  ks.foldl (fun c kind => c.extend kind (es kind)) c

@[simp] theorem source_extendAll (c : Context) (es : EntityKind → List Entity)
    (ks : List EntityKind) : (c.extendAll es ks).source = c.source := by
  induction ks generalizing c with
  | nil => rfl
  | cons k ks ih => exact (ih _).trans (c.source_extend k (es k))

@[simp] theorem config_extendAll (c : Context) (es : EntityKind → List Entity)
    (ks : List EntityKind) : (c.extendAll es ks).config = c.config := by
  induction ks generalizing c with
  | nil => rfl
  | cons k ks ih => exact (ih _).trans (c.config_extend k (es k))

theorem buildEntity_extendAll (c : Context) (es : EntityKind → List Entity)
    {ks : List EntityKind} {kind : EntityKind} (h : ∀ k ∈ ks, kind = .entity → k = .entity)
    (d : Declaration) : buildEntity (c.extendAll es ks) d kind = buildEntity c d kind := by
  induction ks generalizing c with
  | nil => rfl
  | cons k ks ih =>
    show buildEntity ((c.extend k (es k)).extendAll es ks) d kind = _
    rw [ih _ fun k' hk' => h k' (List.mem_cons_of_mem k hk'),
      c.buildEntity_extend k (es k) d kind (h k List.mem_cons_self)]

end Context

namespace Run

/-! ## Single candidates -/

/-- The finding with which a declaration is rejected. -/
def rejection (d : Declaration) (e : BuildError) : Diagnostic :=
  e.diagnostic?.getD ⟨.internalError, .error,
    "Unexpected failure processing " ++ d.label ++ ": " ++ e.message, some d.label, none, d.source⟩

/-- What there is to say about a candidate. -/
def findings (c : Context) (kind : EntityKind) (d : Declaration) : List Diagnostic :=
  match buildEntity c d kind with
  | .ok b => b.diagnostics
  | .error e => [rejection d e]

/-- The labels under which a candidate is recorded as invalid: its own, unless it is built. -/
def invalidLabels (s : DeclarationSource) (kind : EntityKind) (d : Declaration) : List String :=
  if (s.obstacle? kind d).isSome then [d.label] else []

/-- The entity that a candidate gives, if it is built. -/
def entity? (c : Context) (kind : EntityKind) (d : Declaration) : Option Entity :=
  (buildEntity c d kind).toOption.map (·.entity)

/-- What a run has gathered, but for its log. -/
def Progress.content (p : Progress) : Context × List Diagnostic × List String :=
  (p.context, p.diagnostics, p.invalid)

theorem knownName?_of_entity? {c : Context} {kind : EntityKind} {d : Declaration} {e : Entity}
    (h : entity? c kind d = some e) : d.knownName? = some e.qualifiedName := by
  unfold entity? at h
  cases hb : buildEntity c d kind with
  | error _ => simp [hb, Except.toOption] at h
  | ok b =>
    obtain ⟨_, hbuilt⟩ := isBuilt_of_buildEntity hb
    simp only [hb, Except.toOption, Option.map_some, Option.some.injEq] at h
    rw [← h, hbuilt.named]

/-- A step adds what its candidate gives, as long as its name is not defined yet. -/
theorem content_step {kind : EntityKind} {p : Progress} {d : Declaration}
    (hfresh : ∀ name, d.knownName? = some name → (p.context.registry kind).has name = false) :
    (step kind p d).content =
      (p.context.extend kind (entity? p.context kind d).toList,
        p.diagnostics ++ findings p.context kind d,
        p.invalid ++ invalidLabels p.context.source kind d) := by
  unfold step findings invalidLabels entity?
  cases hb : buildEntity p.context d kind with
  | error e =>
    have ho := buildEntity_eq_error_iff.1 hb
    simp only [hb, ho, Except.toOption, Option.map_none, Option.toList_none, Context.extend_nil,
      Option.isSome_some, if_true, rejection]
    cases e.diagnostic? <;> rfl
  | ok b =>
    have ho : p.context.source.obstacle? kind d = none := by
      cases ho : p.context.source.obstacle? kind d with
      | none => rfl
      | some e => rw [buildEntity_of_obstacle ho] at hb; cases hb
    obtain ⟨_, hbuilt⟩ := isBuilt_of_buildEntity hb
    have hdef : p.context.define kind b.entity = .ok (p.context.extend kind [b.entity]) := by
      rw [Context.define, Registry.define, hfresh _ hbuilt.named]
      rfl
    simp only [hb, ho, hdef, Except.toOption, Option.map_some, Option.toList_some,
      Option.isSome_none, Bool.false_eq_true, if_false, List.append_nil]
    rfl

/-! ## All candidates of a kind -/

theorem entity?_extend (c : Context) {kind other : EntityKind} (es : List Entity)
    (h : other = .entity → kind = .entity) (d : Declaration) :
    entity? (c.extend kind es) other d = entity? c other d := by
  rw [entity?, c.buildEntity_extend kind es d other h, entity?]

theorem findings_extend (c : Context) {kind other : EntityKind} (es : List Entity)
    (h : other = .entity → kind = .entity) (d : Declaration) :
    findings (c.extend kind es) other d = findings c other d := by
  rw [findings, c.buildEntity_extend kind es d other h, findings]

theorem has_extend_of_ne {c : Context} {kind : EntityKind} {es : List Entity} {name : String}
    (h : (c.registry kind).has name = false) (hes : ∀ e ∈ es, e.qualifiedName ≠ name) :
    ((c.extend kind es).registry kind).has name = false := by
  unfold Registry.has Registry.get? at h ⊢
  have hnone : (es.map fun e => (e.qualifiedName, e)).lookup name = none := by
    refine List.lookup_eq_none_iff.2 fun q hq => ?_
    obtain ⟨e, he, rfl⟩ := List.mem_map.1 hq
    exact bne_iff_ne.2 (Ne.symm (hes e he))
  rw [c.entries_extend, if_pos rfl, List.lookup_append, hnone, Option.or_none, h]

/-- Candidates with distinct names are built one by one, each as in the first context. -/
theorem content_foldl_step {kind : EntityKind} {p : Progress} {ds : List Declaration}
    (hnames : (ds.filterMap Declaration.knownName?).Nodup)
    (hfresh : ∀ d ∈ ds, ∀ name, d.knownName? = some name →
      (p.context.registry kind).has name = false) :
    (ds.foldl (step kind) p).content =
      (p.context.extend kind (ds.filterMap (entity? p.context kind)),
        p.diagnostics ++ ds.flatMap (findings p.context kind),
        p.invalid ++ ds.flatMap (invalidLabels p.context.source kind)) := by
  induction ds generalizing p with
  | nil => simp [Context.extend_nil, Progress.content]
  | cons d ds ih =>
    have hstep := content_step (hfresh d List.mem_cons_self)
    simp only [Progress.content, Prod.mk.injEq] at hstep
    obtain ⟨hcontext, hdiagnostics, hinvalid⟩ := hstep
    rw [List.foldl_cons, ih]
    · rw [hcontext, hdiagnostics, hinvalid, Context.extend_extend, Context.source_extend]
      simp only [funext (entity?_extend p.context _ id), funext (findings_extend p.context _ id)]
      rw [List.flatMap_cons, List.flatMap_cons, List.append_assoc, List.append_assoc]
      cases he : entity? p.context kind d with
      | none => rw [List.filterMap_cons_none he]; rfl
      | some e => rw [List.filterMap_cons_some he]; rfl
    · exact hnames.sublist ((List.sublist_cons_self d ds).filterMap _)
    · -- the one name that the step may have defined is that of `d`, which no later candidate has
      intro d' hd' name hname
      rw [hcontext]
      refine has_extend_of_ne (hfresh d' (List.mem_cons_of_mem d hd') name hname) fun e he heq => ?_
      rw [Option.mem_toList] at he
      have hd := knownName?_of_entity? he
      rw [List.filterMap_cons_some hd, List.nodup_cons] at hnames
      exact hnames.1 (List.mem_filterMap.2 ⟨d', hd', heq ▸ hname⟩)

/-! ## Candidates -/

/-- A declaration is taken to the candidates exactly when no candidate has its name. -/
theorem addCandidate_cases (found : List Declaration) (d : Declaration) :
    (addCandidate found d = found ∧
      ∃ name, d.knownName? = some name ∧ ∃ other ∈ found, other.knownName? = some name) ∨
    (addCandidate found d = found ++ [d] ∧
      ∀ name, d.knownName? = some name → ∀ other ∈ found, other.knownName? ≠ some name) := by
  unfold addCandidate
  cases hname : d.knownName? with
  | none => exact .inr ⟨rfl, fun _ h => by cases h⟩
  | some name =>
    simp only
    by_cases hany : found.any (·.knownName? == some name) = true
    · obtain ⟨other, hother, hsame⟩ := List.any_eq_true.1 hany
      exact .inl ⟨if_pos hany, name, rfl, other, hother, eq_of_beq hsame⟩
    · refine .inr ⟨if_neg hany, fun _ h other hother hsame => hany ?_⟩
      cases h
      exact List.any_eq_true.2 ⟨other, hother, beq_iff_eq.2 hsame⟩

theorem addCandidate_of_forall_ne {found : List Declaration} {d : Declaration}
    (h : ∀ name, d.knownName? = some name → ∀ other ∈ found, other.knownName? ≠ some name) :
    addCandidate found d = found ++ [d] := by
  obtain ⟨-, name, hname, other, hother, hsame⟩ | ⟨heq, -⟩ := addCandidate_cases found d
  · exact absurd hsame (h name hname other hother)
  · exact heq

theorem nodup_foldl_addCandidate {found ds : List Declaration}
    (h : (found.filterMap Declaration.knownName?).Nodup) :
    ((ds.foldl addCandidate found).filterMap Declaration.knownName?).Nodup := by
  induction ds generalizing found with
  | nil => exact h
  | cons d ds ih =>
    rw [List.foldl_cons]
    refine ih ?_
    obtain ⟨heq, -⟩ | ⟨heq, hnew⟩ := addCandidate_cases found d
    · rwa [heq]
    · rw [heq, List.filterMap_append]
      cases hname : d.knownName? with
      | none =>
        rw [List.filterMap_cons_none hname, List.filterMap_nil, List.append_nil]
        exact h
      | some name =>
        rw [List.filterMap_cons_some hname, List.filterMap_nil]
        refine List.nodup_append.2 ⟨h, List.nodup_singleton _, fun a ha b hb => ?_⟩
        rw [List.mem_singleton] at hb
        rintro rfl
        obtain ⟨other, hother, hsame⟩ := List.mem_filterMap.1 ha
        exact hnew name hname other hother (hb ▸ hsame)

/-- No two candidates of a kind have the same name. -/
theorem nodup_candidates (s : DeclarationSource) (marker : AnnotationKind) :
    ((candidates s marker).filterMap Declaration.knownName?).Nodup :=
  nodup_foldl_addCandidate List.nodup_nil

theorem foldl_addCandidate_of_nodup {found ds : List Declaration}
    (h : ((found ++ ds).filterMap Declaration.knownName?).Nodup) :
    ds.foldl addCandidate found = found ++ ds := by
  induction ds generalizing found with
  | nil => simp
  | cons d ds ih =>
    have hd : addCandidate found d = found ++ [d] := by
      refine addCandidate_of_forall_ne fun name hname other hother hsame => ?_
      rw [List.filterMap_append, List.filterMap_cons_some hname] at h
      exact (List.nodup_append.1 h).2.2 name (List.mem_filterMap.2 ⟨other, hother, hsame⟩) name
        List.mem_cons_self rfl
    rw [List.foldl_cons, hd, ih (by rwa [List.append_assoc]), List.append_assoc,
      List.singleton_append]

/-- With distinct names every declaration with the marker is a candidate. -/
theorem candidates_eq_filter {s : DeclarationSource}
    (h : (s.declarations.filterMap Declaration.knownName?).Nodup) (marker : AnnotationKind) :
    candidates s marker = s.declarations.filter fun d => hasMark (s.typeMarks d) marker :=
  foldl_addCandidate_of_nodup (h.sublist (List.filter_sublist.filterMap _))

/-! ## The whole run -/

/-- Builds the candidates of a kind. -/
def phase (s : DeclarationSource) (p : Progress) (kind : EntityKind) : Progress :=
  (candidates s kind.marker).foldl (step kind) p

theorem build_eq_foldl_phase (s : DeclarationSource) (config : Config) :
    build s config = kinds.foldl (phase s) ⟨.start s config, [], [], []⟩ := rfl

/-- The entities that the candidates of a kind give in a context. -/
def builtIn (s : DeclarationSource) (c : Context) (kind : EntityKind) : List Entity :=
  (candidates s kind.marker).filterMap (entity? c kind)

theorem content_phase (s : DeclarationSource) (kind : EntityKind) {p : Progress}
    (hempty : (p.context.registry kind).entries = []) :
    (phase s p kind).content =
      (p.context.extend kind (builtIn s p.context kind),
        p.diagnostics ++ (candidates s kind.marker).flatMap (findings p.context kind),
        p.invalid ++ (candidates s kind.marker).flatMap (invalidLabels p.context.source kind)) := by
  refine content_foldl_step (nodup_candidates s kind.marker) fun _ _ name _ => ?_
  rw [Registry.has, Registry.get?, hempty]
  rfl

/-- When entities come last, every kind is built as in the context that all end in. -/
theorem content_foldl_phase (s : DeclarationSource) {ks : List EntityKind}
    (hks : ks.Pairwise fun k k' => k ≠ k' ∧ k ≠ .entity) {p : Progress}
    (hsource : p.context.source = s)
    (hempty : ∀ kind ∈ ks, (p.context.registry kind).entries = []) :
    (ks.foldl (phase s) p).content =
      (p.context.extendAll (builtIn s (ks.foldl (phase s) p).context) ks,
        p.diagnostics ++ ks.flatMap fun kind =>
          (candidates s kind.marker).flatMap (findings (ks.foldl (phase s) p).context kind),
        p.invalid ++ ks.flatMap fun kind =>
          (candidates s kind.marker).flatMap (invalidLabels s kind)) := by
  induction ks generalizing p with
  | nil => simp [Progress.content, Context.extendAll]
  | cons kind ks ih =>
    obtain ⟨hlast, hks⟩ := List.pairwise_cons.1 hks
    have hphase := content_phase s kind (hempty kind List.mem_cons_self)
    simp only [Progress.content, Prod.mk.injEq] at hphase
    obtain ⟨hcontext, hdiagnostics, hinvalid⟩ := hphase
    have hsource' : (phase s p kind).context.source = s := by
      rw [hcontext, Context.source_extend, hsource]
    have hempty' (k : EntityKind) (hk : k ∈ ks) :
        ((phase s p kind).context.registry k).entries = [] := by
      rw [hcontext, Context.entries_extend, if_neg (hlast k hk).1.symm,
        hempty k (List.mem_cons_of_mem kind hk)]
    have hrest := ih hks hsource' hempty'
    rw [List.foldl_cons]
    generalize ks.foldl (phase s) (phase s p kind) = q at hrest ⊢
    simp only [Progress.content, Prod.mk.injEq] at hrest ⊢
    obtain ⟨hcontext', hdiagnostics', hinvalid'⟩ := hrest
    -- a build sees nothing of its own kind, and nothing of the kinds that follow
    have hbuild (d : Declaration) : buildEntity q.context d kind = buildEntity p.context d kind := by
      rw [hcontext', Context.buildEntity_extendAll, hcontext, Context.buildEntity_extend]
      · exact id
      · exact fun k hk hkind => absurd hkind (hlast k hk).2
    have hbuilt : builtIn s q.context kind = builtIn s p.context kind :=
      List.filterMap_congr fun d _ => by rw [entity?, hbuild, entity?]
    have hfindings : findings q.context kind = findings p.context kind :=
      funext fun d => by rw [findings, hbuild, findings]
    refine ⟨?_, ?_, ?_⟩
    · refine hcontext'.trans ?_
      rw [hcontext, ← hbuilt]
      rfl
    · rw [hdiagnostics', hdiagnostics, List.flatMap_cons, List.append_assoc, hfindings]
    · rw [hinvalid', hinvalid, List.flatMap_cons, List.append_assoc, hsource]

/-- The entities that a run builds of a kind. -/
def builtOf (s : DeclarationSource) (config : Config) (kind : EntityKind) : List Entity :=
  builtIn s (build s config).context kind

/-- The registries, findings and labels of a run, each candidate taken in the final context. -/
theorem content_build (s : DeclarationSource) (config : Config) :
    (build s config).content =
      ((Context.start s config).extendAll (builtOf s config) kinds,
        kinds.flatMap fun kind =>
          (candidates s kind.marker).flatMap (findings (build s config).context kind),
        kinds.flatMap fun kind => (candidates s kind.marker).flatMap (invalidLabels s kind)) := by
  refine content_foldl_phase s ?_ rfl fun kind _ => ?_
  · decide
  · cases kind <;> rfl

variable (s : DeclarationSource) (config : Config)

@[simp] theorem source_build : (build s config).context.source = s := by
  have h := congrArg (·.1.source) (content_build s config)
  simpa [Progress.content, Context.start] using h

@[simp] theorem config_build : (build s config).context.config = config := by
  have h := congrArg (·.1.config) (content_build s config)
  simpa [Progress.content, Context.start] using h

/-- The registry of a kind holds what its candidates give. -/
theorem entries_build (kind : EntityKind) :
    ((build s config).context.registry kind).entries =
      (builtOf s config kind).map fun e => (e.qualifiedName, e) := by
  have h := congrArg (fun content => (content.1.registry kind).entries) (content_build s config)
  refine h.trans ?_
  cases kind <;> simp [Context.extendAll, kinds, Context.entries_extend] <;> rfl

theorem values_build (kind : EntityKind) :
    ((build s config).context.registry kind).values = builtOf s config kind := by
  rw [Registry.values, entries_build, List.map_map]
  exact List.map_id _

theorem get?_build (kind : EntityKind) (name : String) :
    ((build s config).context.registry kind).get? name =
      (builtOf s config kind).find? (·.qualifiedName == name) := by
  rw [Registry.get?, entries_build, lookup_map]

/-- The findings of a run before validation, candidate by candidate. -/
theorem diagnostics_build : (build s config).diagnostics =
    kinds.flatMap fun kind =>
      (candidates s kind.marker).flatMap (findings (build s config).context kind) :=
  congrArg (·.2.1) (content_build s config)

theorem invalid_build : (build s config).invalid =
    kinds.flatMap fun kind => (candidates s kind.marker).flatMap (invalidLabels s kind) :=
  congrArg (·.2.2) (content_build s config)

variable {s config}

theorem exists_buildEntity_of_mem_builtOf {kind : EntityKind} {e : Entity}
    (h : e ∈ builtOf s config kind) :
    ∃ d b, d ∈ candidates s kind.marker ∧ b.entity = e ∧
      buildEntity (build s config).context d kind = .ok b := by
  obtain ⟨d, hd, he⟩ := List.mem_filterMap.1 h
  unfold entity? at he
  cases hb : buildEntity (build s config).context d kind with
  | error _ => simp [hb, Except.toOption] at he
  | ok b =>
    simp only [hb, Except.toOption, Option.map_some, Option.some.injEq] at he
    exact ⟨d, b, hd, he, hb⟩

theorem isBuilt_of_mem_builtOf {kind : EntityKind} {e : Entity} (h : e ∈ builtOf s config kind) :
    ∃ d members b, d ∈ candidates s kind.marker ∧ b.entity = e ∧
      IsBuilt (build s config).context kind d members b := by
  obtain ⟨d, b, hd, he, hb⟩ := exists_buildEntity_of_mem_builtOf h
  obtain ⟨members, hbuilt⟩ := isBuilt_of_buildEntity hb
  exact ⟨d, members, b, hd, he, hbuilt⟩

/-- What a run has built is built from the members that its source supplies. -/
theorem members_of_isBuilt {kind : EntityKind} {d : Declaration} {members : List Member} {b : Built}
    (h : IsBuilt (build s config).context kind d members b) : s.members d = .ok members := by
  have hmembers := h.supplied
  rwa [source_build] at hmembers

/-- No two entities of a kind have the same name. -/
theorem nodup_builtOf (kind : EntityKind) :
    ((builtOf s config kind).map Entity.qualifiedName).Nodup := by
  refine (nodup_candidates s kind.marker).sublist ?_
  rw [builtOf, builtIn, List.map_filterMap]
  refine filterMap_sublist_filterMap fun d name hname => ?_
  obtain ⟨e, he, rfl⟩ := Option.map_eq_some_iff.1 hname
  exact knownName?_of_entity? he

end Run

end Metamodel
