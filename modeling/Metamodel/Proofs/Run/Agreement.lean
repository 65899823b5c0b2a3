import Metamodel.Proofs.Graph.Order
import Metamodel.Proofs.Run.Outcome

/-!
# Sources that build alike

Two sources agree when they supply the same members, have the same headings and the same
candidates that can be built, in whatever order. They build the same entities
(`Agree.buildEntity_eq`, `Agree.builtOf_perm`): superclasses and embeddables first, since these
look nothing up in a registry, and then the entities, which find the same ancestors.
-/

namespace Metamodel.Run

/-- The candidates of a kind that nothing keeps from being built. -/
def buildable (s : DeclarationSource) (kind : EntityKind) : List Declaration :=
  (candidates s kind.marker).filter fun d => (s.obstacle? kind d).isNone

/-- Sources that differ at most in the order of their declarations and in candidates that cannot be
built. -/
structure Agree (s s' : DeclarationSource) : Prop where
  catalog : s.catalog = s'.catalog
  members : s.members = s'.members
  names : (s.declarations.filterMap Declaration.knownName?).Nodup
  headings : s.headings.Perm s'.headings
  buildable : ∀ kind, (buildable s kind).Perm (buildable s' kind)

theorem builtOf_eq_filterMap_buildable (s : DeclarationSource) (config : Config)
    (kind : EntityKind) :
    builtOf s config kind =
      (buildable s kind).filterMap (entity? (build s config).context kind) := by
  rw [builtOf, builtIn, buildable, List.filterMap_filter]
  refine List.filterMap_congr fun d _ => ?_
  cases ho : s.obstacle? kind d with
  | none => rfl
  | some e =>
    have herror : buildEntity (build s config).context d kind = .error e :=
      buildEntity_of_obstacle (by rw [source_build, ho])
    rw [entity?, herror]
    rfl

namespace Agree

variable {s s' : DeclarationSource} (h : Agree s s') (config : Config)

include h

theorem buildEntity_eq_of_ancestor? {kind : EntityKind}
    (hlookup : kind = .entity →
      (build s config).context.ancestor? = (build s' config).context.ancestor?)
    (d : Declaration) :
    buildEntity (build s config).context d kind = buildEntity (build s' config).context d kind := by
  refine buildEntity_congr ?_ ?_ ?_ (fun _ own => ?_)
    fun hkind _ name _ => congrFun (hlookup hkind) name
  · rw [source_build, source_build, h.catalog]
  · rw [config_build, config_build]
  · rw [source_build, source_build, h.members]
  · rw [source_build, source_build]
    exact Ancestry.of_perm h.names h.headings d own

theorem builtOf_perm_of_ancestor? {kind : EntityKind}
    (hlookup : kind = .entity →
      (build s config).context.ancestor? = (build s' config).context.ancestor?) :
    (builtOf s config kind).Perm (builtOf s' config kind) := by
  have hentity : entity? (build s config).context kind =
      entity? (build s' config).context kind := by
    funext d
    rw [entity?, h.buildEntity_eq_of_ancestor? config hlookup d, entity?]
  rw [builtOf_eq_filterMap_buildable, builtOf_eq_filterMap_buildable, hentity]
  exact (h.buildable kind).filterMap _

/-- Superclasses and embeddables are the same, hence so are the ancestors found among them. -/
theorem ancestor?_eq :
    (build s config).context.ancestor? = (build s' config).context.ancestor? := by
  refine funext fun name => Context.ancestor?_congr fun kind hkind => ?_
  rw [get?_build, get?_build, find?_perm (h.builtOf_perm_of_ancestor? config
    fun he => absurd he hkind) (nodup_builtOf kind)]

/-- At the end of both runs a declaration is built alike. -/
theorem buildEntity_eq (kind : EntityKind) (d : Declaration) :
    buildEntity (build s config).context d kind = buildEntity (build s' config).context d kind :=
  h.buildEntity_eq_of_ancestor? config (fun _ => h.ancestor?_eq config) d

/-- Both runs build the same entities of a kind. -/
theorem builtOf_perm (kind : EntityKind) :
    (builtOf s config kind).Perm (builtOf s' config kind) :=
  h.builtOf_perm_of_ancestor? config fun _ => h.ancestor?_eq config

/-- If the candidates that can be built come in the same order, so do the entities. -/
theorem builtOf_eq (hbuildable : Run.buildable s = Run.buildable s') (kind : EntityKind) :
    builtOf s config kind = builtOf s' config kind := by
  have hentity : entity? (build s config).context kind =
      entity? (build s' config).context kind := by
    funext d
    rw [entity?, h.buildEntity_eq config kind d, entity?]
  rw [builtOf_eq_filterMap_buildable, builtOf_eq_filterMap_buildable, hentity, hbuildable]

theorem findings_eq (kind : EntityKind) :
    findings (build s config).context kind = findings (build s' config).context kind := by
  funext d
  rw [findings, h.buildEntity_eq config kind d, findings]

end Agree

/-! ## The results of a run -/

theorem graph_process (s : DeclarationSource) (config : Config) (outDir : String) :
    (process s config outDir).graph =
      Graph.assemble (builtOf s config .entity) (builtOf s config .superclass)
        (builtOf s config .embeddable) := by
  rw [← values_build, ← values_build, ← values_build]
  rfl

theorem artifacts_process (s : DeclarationSource) (config : Config) (outDir : String) :
    (process s config outDir).artifacts =
      if (process s config outDir).emitted then
        (process s config outDir).graph.artifacts
          ⟨config.runtimeModule, outDir, config.generateModel⟩
      else [] := rfl

theorem diagnostics_process (s : DeclarationSource) (config : Config) (outDir : String) :
    (process s config outDir).diagnostics =
      (build s config).diagnostics ++ (process s config outDir).graph.validate := rfl

theorem invalid_process (s : DeclarationSource) (config : Config) (outDir : String) :
    (process s config outDir).invalid = (build s config).invalid := rfl

theorem emitted_process_of_generateAlways {config : Config} (h : config.generateAlways = true)
    (s : DeclarationSource) (outDir : String) : (process s config outDir).emitted = true :=
  Bool.or_eq_true_iff.2 (Or.inl h)

theorem exists_kind_of_mem {s : DeclarationSource} {config : Config} {e : Entity}
    (h : e ∈ builtOf s config .entity ++ builtOf s config .superclass ++
      builtOf s config .embeddable) : ∃ kind, e ∈ builtOf s config kind := by
  rcases List.mem_append.1 h with h | h
  · rcases List.mem_append.1 h with h | h
    · exact ⟨_, h⟩
    · exact ⟨_, h⟩
  · exact ⟨_, h⟩

theorem isKeyed_graph_process (s : DeclarationSource) (config : Config) (outDir : String) :
    (process s config outDir).graph.IsKeyed := by
  rw [graph_process]
  refine Graph.isKeyed_assemble fun e he => ?_
  obtain ⟨kind, hkind⟩ := exists_kind_of_mem he
  obtain ⟨_, _, b, -, rfl, hb⟩ := isBuilt_of_mem_builtOf hkind
  exact hb.nodup_names

/-- Every node of a run is one of the types that it has built. -/
theorem exists_kind_of_mem_nodes {s : DeclarationSource} {config : Config} {outDir : String}
    {e : Entity} (he : e ∈ (process s config outDir).graph.nodes) :
    ∃ kind, e ∈ builtOf s config kind := by
  rw [graph_process] at he
  have hnodes : e ∈ Graph.distinctNodes (builtOf s config .entity ++ builtOf s config .superclass ++
    builtOf s config .embeddable) := he
  rw [Graph.distinctNodes_eq] at hnodes
  exact exists_kind_of_mem ((firstBy_sublist _).subset hnodes)

/-- No two properties of a node have the same name. -/
theorem nodup_names_of_mem_nodes {s : DeclarationSource} {config : Config} {outDir : String}
    {e : Entity} (he : e ∈ (process s config outDir).graph.nodes) :
    (e.properties.map Property.name).Nodup := by
  obtain ⟨kind, hkind⟩ := exists_kind_of_mem_nodes he
  obtain ⟨_, _, b, -, rfl, hb⟩ := isBuilt_of_mem_builtOf hkind
  exact hb.nodup_names

theorem Agree.graph_sameContents {s s' : DeclarationSource} (h : Agree s s') (config : Config)
    (outDir : String) :
    (process s config outDir).graph.SameContents (process s' config outDir).graph := by
  rw [graph_process, graph_process]
  exact Graph.assemble_sameContents (h.builtOf_perm config _) (h.builtOf_perm config _)
    (h.builtOf_perm config _) (nodup_builtOf _) (nodup_builtOf _) (nodup_builtOf _)

end Metamodel.Run
