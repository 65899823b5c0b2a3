import Metamodel.Proofs.Run.Access
import Metamodel.Proofs.Run.Descent
import Metamodel.Proofs.Run.Findings

/-!
# To-many properties without a collection

A property with a to-many cardinality must be a collection. The check of a run looks at own properties
only, since what is inherited is to be reported with the type that declares it; so there is a finding
for each own property that is malformed, and no other (`toMany_reported`). An inherited one is
reported when the node of the declaring type has it as well. It has, unless the name stands for an
entity that another declaration describes (`exists_unreported`).
-/

namespace Metamodel

/-- Whether a type declares the property itself and the property is no collection, as its cardinality
asks for. -/
def OwnedProperty.isMalformed (op : OwnedProperty) : Bool :=
  op.property.inheritedFrom.isNone && Graph.isMalformedToMany op.property

/-- The error that a property is no collection. -/
def OwnedProperty.toManyFinding (op : OwnedProperty) : Diagnostic :=
  ⟨.toManyNotCollection, .error,
    ((op.property.cardinality.map Cardinality.text).getD "") ++ " property " ++ op.property.name ++
      " of " ++ op.owner.qualifiedName ++ " must be a collection type, not " ++
      op.property.declaredTypeName,
    some op.owner.qualifiedName, some op.property.name, op.property.source.or op.owner.source⟩

/-- The findings that a property of a type is no collection. -/
def RunResult.toManyFindings (r : RunResult) (owner property : String) : List Diagnostic :=
  r.diagnostics.filter fun f =>
    (f.entity, f.property) == (some owner, some property) && f.code == .toManyNotCollection

namespace Run

variable {s : DeclarationSource} {config : Config} {outDir : String}

/-! ## Findings -/

theorem toManyNotCollection_process {e : Entity}
    (he : e ∈ (process s config outDir).graph.nodes) :
    (process s config outDir).graph.toManyNotCollection e =
      ((e.properties.map (⟨e, ·⟩)).filter OwnedProperty.isMalformed).map
        OwnedProperty.toManyFinding := by
  unfold Graph.toManyNotCollection
  rw [List.filter_map, List.map_map]
  refine congrArg (List.map _) (List.filter_congr fun p hp => ?_)
  rw [isDeclaredElsewhere_process he hp, Option.not_isSome]
  rfl

variable (s config outDir)

/-- The findings are those about malformed own properties, in the order of the nodes. -/
theorem filter_toMany_process :
    (process s config outDir).diagnostics.filter (·.code == .toManyNotCollection) =
      ((process s config outDir).graph.properties.filter OwnedProperty.isMalformed).map
        OwnedProperty.toManyFinding := by
  have hcode (f : Diagnostic) : (f.code == .toManyNotCollection) =
      decide (f.code ∈ [DiagnosticCode.toManyNotCollection]) := by
    rw [Bool.eq_iff_iff]
    simp
  have hproperties : (process s config outDir).graph.properties =
      (process s config outDir).graph.nodes.flatMap fun o => o.properties.map (⟨o, ·⟩) := by
    rw [graph_process]
    rfl
  simp only [hcode]
  rw [filter_diagnostics_process (by decide), Graph.filter_validate _ (by decide), hproperties,
    List.filter_flatMap, List.map_flatMap]
  refine List.flatMap_congr fun e he => ?_
  rw [Graph.filter_nodeFindings]
  simp only [List.mem_singleton, reduceCtorEq, if_false, if_true, List.nil_append, List.append_nil]
  exact toManyNotCollection_process he

variable {s config outDir}

theorem toManyFindings_process (owner property : String) :
    (process s config outDir).toManyFindings owner property =
      (((process s config outDir).graph.properties.filter (·.key == (owner, property))).filter
        OwnedProperty.isMalformed).map OwnedProperty.toManyFinding := by
  have hkey (op : OwnedProperty) :
      ((op.toManyFinding.entity, op.toManyFinding.property) == (some owner, some property)) =
        (op.key == (owner, property)) := by
    rw [Bool.eq_iff_iff, beq_iff_eq, beq_iff_eq]
    simp [OwnedProperty.toManyFinding, OwnedProperty.key]
  unfold RunResult.toManyFindings
  rw [← List.filter_filter, filter_toMany_process, List.filter_map, List.filter_comm]
  exact congrArg (fun ops => (List.filter _ ops).map _) (List.filter_congr fun op _ => hkey op)

/-- A node's property has a finding when it is a malformed own one, and no second one. -/
theorem toManyFindings_of_mem {node : Entity}
    (hnode : node ∈ (process s config outDir).graph.nodes) {q : Property}
    (hq : q ∈ node.properties) :
    (process s config outDir).toManyFindings node.qualifiedName q.name =
      if (⟨node, q⟩ : OwnedProperty).isMalformed then [OwnedProperty.toManyFinding ⟨node, q⟩]
      else [] := by
  have hop : (⟨node, q⟩ : OwnedProperty) ∈ (process s config outDir).graph.properties :=
    mem_properties_process_iff.2 ⟨hnode, hq⟩
  have hsingle : (process s config outDir).graph.properties.filter
      (·.key == (node.qualifiedName, q.name)) = [⟨node, q⟩] :=
    filter_eq_singleton (nodup_properties_process s config outDir) hop
  rw [toManyFindings_process, hsingle, List.filter_cons, List.filter_nil]
  split <;> rfl

/-- There is no finding about a name that no property of the node has. -/
theorem toManyFindings_of_forall_ne {node : Entity}
    (hnode : node ∈ (process s config outDir).graph.nodes) {name : String}
    (h : ∀ q ∈ node.properties, q.name ≠ name) :
    (process s config outDir).toManyFindings node.qualifiedName name = [] := by
  have hnone : (process s config outDir).graph.properties.filter
      (·.key == (node.qualifiedName, name)) = [] := by
    refine List.filter_eq_nil_iff.2 fun op hop hkey => ?_
    obtain ⟨howner, hproperty⟩ := mem_properties_process_iff.1 hop
    obtain ⟨hname, hpname⟩ := Prod.mk.inj (eq_of_beq hkey)
    rw [(isKeyed_graph_process s config outDir).node_eq howner hnode hname] at hproperty
    exact h _ hproperty hpname
  rw [toManyFindings_process, hnone]
  rfl

/-- There is a finding about a name of a node exactly when it is that of a malformed own property. -/
theorem length_toManyFindings {node : Entity}
    (hnode : node ∈ (process s config outDir).graph.nodes) (name : String) :
    ((process s config outDir).toManyFindings node.qualifiedName name).length ≤ 1 ∧
      (((process s config outDir).toManyFindings node.qualifiedName name).length = 1 ↔
        ∃ q ∈ node.properties, q.name = name ∧ (⟨node, q⟩ : OwnedProperty).isMalformed = true) := by
  by_cases hname : ∃ q ∈ node.properties, q.name = name
  · obtain ⟨q, hq, rfl⟩ := hname
    have honly (q' : Property) (hq' : q' ∈ node.properties) (h : q'.name = q.name) : q' = q :=
      List.inj_on_of_nodup_map (nodup_names_of_mem_nodes hnode) hq' hq h
    rw [toManyFindings_of_mem hnode hq]
    by_cases hmalformed : (⟨node, q⟩ : OwnedProperty).isMalformed = true
    · rw [if_pos hmalformed]
      exact ⟨Nat.le_refl 1, fun _ => ⟨q, hq, rfl, hmalformed⟩, fun _ => rfl⟩
    · rw [if_neg hmalformed]
      refine ⟨Nat.zero_le 1, fun h => absurd h (by decide), ?_⟩
      rintro ⟨q', hq', hsame, hq'm⟩
      rw [honly q' hq' hsame] at hq'm
      exact absurd hq'm hmalformed
  · rw [toManyFindings_of_forall_ne hnode fun q hq h => hname ⟨q, hq, h⟩]
    refine ⟨Nat.zero_le 1, fun h => absurd h (by decide), ?_⟩
    rintro ⟨q, hq, hsame, -⟩
    exact absurd ⟨q, hq, hsame⟩ hname

/-! ## Where a property is reported -/

/-- The node of the declaring type has the own property that is inherited, unless it is an entity
that another declaration describes. -/
theorem exists_own_of_agree (h : s.EntitiesAgree) {e : Entity}
    (he : e ∈ (process s config outDir).graph.nodes) {p : Property} (hp : p ∈ e.properties)
    {ancestor : String} (hfrom : p.inheritedFrom = some ancestor) {node : Entity}
    (hnode : node ∈ (process s config outDir).graph.nodes) (hname : node.qualifiedName = ancestor) :
    ∃ q ∈ node.properties, q.inheritedFrom = none ∧ p = q.inherited ancestor := by
  obtain ⟨e', hlookup, q, hq, hown, rfl⟩ := exists_declarer (mem_builtOf_kind he) hp hfrom
  obtain ⟨hname', kind, hkind, he'⟩ := mem_builtOf_of_ancestor? hlookup
  have hfound := node?_eq_some_iff.2 ⟨hnode, hname⟩
  rw [node?_process, hlookup, Option.or_eq_some_iff] at hfound
  rcases hfound with hentity | ⟨-, hsame⟩
  · have hmem := mem_properties_of_agree h (List.mem_of_find?_eq_some hentity) hkind he'
      (hname.trans hname'.symm) hq
    exact ⟨q, hmem, hown, rfl⟩
  · cases hsame
    exact ⟨q, hq, hown, rfl⟩

/-- The findings of a run about to-many properties are those about its malformed own properties. A
malformed property of a node has at most one with the type that declares it, and has it exactly when
the node of that type declares a malformed property of the name itself. That is so of every own
property, and of every inherited one if no name stands for an entity and for something else that
another declaration describes. -/
theorem toMany_reported (s : DeclarationSource) (config : Config) (outDir : String) :
    let r := process s config outDir
    r.diagnostics.filter (·.code == .toManyNotCollection) =
        (r.graph.properties.filter OwnedProperty.isMalformed).map OwnedProperty.toManyFinding ∧
      ∀ e ∈ r.graph.nodes, ∀ p ∈ e.properties, Graph.isMalformedToMany p = true →
        ∃ node ∈ r.graph.nodes, node.qualifiedName = p.declarer e ∧
          (r.toManyFindings (p.declarer e) p.name).length ≤ 1 ∧
          ((r.toManyFindings (p.declarer e) p.name).length = 1 ↔ ∃ q ∈ node.properties,
            q.name = p.name ∧ (⟨node, q⟩ : OwnedProperty).isMalformed = true) ∧
          (p.inheritedFrom = none ∨ s.EntitiesAgree →
            (r.toManyFindings (p.declarer e) p.name).length = 1) := by
  intro r
  refine ⟨filter_toMany_process s config outDir, ?_⟩
  intro e he p hp hmalformed
  obtain ⟨node, hnode, hname⟩ := exists_node_declarer he hp
  obtain ⟨hle, hiff⟩ := length_toManyFindings hnode p.name
  rw [hname] at hle hiff
  refine ⟨node, hnode, hname, hle, hiff, fun hcondition => hiff.2 ?_⟩
  cases hfrom : p.inheritedFrom with
  | none =>
    rw [Property.declarer, hfrom, Option.getD_none] at hname
    obtain rfl := (isKeyed_graph_process s config outDir).node_eq hnode he hname
    refine ⟨p, hp, rfl, ?_⟩
    rw [OwnedProperty.isMalformed, hfrom, hmalformed]
    rfl
  | some ancestor =>
    rw [hfrom] at hcondition
    have hagree : s.EntitiesAgree := hcondition.resolve_left (by simp)
    rw [Property.declarer, hfrom, Option.getD_some] at hname
    obtain ⟨q, hq, hown, rfl⟩ := exists_own_of_agree hagree he hp hfrom hnode hname
    refine ⟨q, hq, rfl, ?_⟩
    rw [OwnedProperty.isMalformed, hown]
    exact hmalformed

end Run

/-! ## Tagged articles -/

namespace Sample

/-- A type with labels, which are no collection. -/
def tagged : Declaration :=
  type .class "Tagged" ["Superclass"] [] [field "id" ["Key"], field "labels" ["OneToMany"]]

def article : Declaration :=
  type .class "Article" ["Entity"] ["Tagged"] [field "title" []]

/-- An entity that goes by the name of the other type and has no labels. -/
def taggedEntity : Declaration :=
  type .class "Tagged" ["Entity"] [] [field "id" ["Key"]]

end Sample

namespace Run

/-- The labels of an article are reported with the type that it inherits them from. -/
theorem labels_of_article_reported :
    ∃ e ∈ (Sample.run [Sample.tagged, Sample.article]).graph.nodes, ∃ p ∈ e.properties,
      p.inheritedFrom = some "shop.Tagged" ∧ p.name = "labels" ∧
      ((Sample.run [Sample.tagged, Sample.article]).toManyFindings "shop.Tagged" "labels").length =
        1 := by
  have hnodes : ((Sample.run [Sample.tagged, Sample.article]).graph.nodes.any fun e =>
      e.properties.any fun p => p.inheritedFrom == some "shop.Tagged" && p.name == "labels" &&
        Graph.isMalformedToMany p) = true := by
    decide +kernel
  obtain ⟨e, he, hany⟩ := List.any_eq_true.1 hnodes
  simp only [List.any_eq_true, Bool.and_eq_true, beq_iff_eq] at hany
  obtain ⟨p, hp, ⟨hfrom, hname⟩, hmalformed⟩ := hany
  have hagree : (DeclarationSource.ofDeclarations [Sample.tagged, Sample.article]
      (.create true)).EntitiesAgree := entitiesAgree_of_nodup (by decide +kernel)
  obtain ⟨-, hreported⟩ := toMany_reported
    (.ofDeclarations [Sample.tagged, Sample.article] (.create true)) .default "generated"
  obtain ⟨-, -, -, -, -, hone⟩ := hreported e he p hp hmalformed
  have hlength := hone (Or.inr hagree)
  rw [Property.declarer, hfrom, Option.getD_some, hname] at hlength
  exact ⟨e, he, p, hp, hfrom, hname, hlength⟩

/-- When there is an entity of that name too, nothing is reported about them at all. -/
theorem exists_unreported :
    ∃ e ∈ (Sample.run [Sample.tagged, Sample.taggedEntity, Sample.article]).graph.nodes,
      ∃ p ∈ e.properties, Graph.isMalformedToMany p = true ∧ p.declarer e = "shop.Tagged" ∧
        p.name = "labels" ∧
        (Sample.run [Sample.tagged, Sample.taggedEntity, Sample.article]).toManyFindings
          (p.declarer e) p.name = [] := by
  have hnodes : ((Sample.run [Sample.tagged, Sample.taggedEntity, Sample.article]).graph.nodes.any
      fun e => e.properties.any fun p => Graph.isMalformedToMany p &&
        p.declarer e == "shop.Tagged" && p.name == "labels") = true := by
    decide +kernel
  have hfindings : (Sample.run [Sample.tagged, Sample.taggedEntity,
      Sample.article]).toManyFindings "shop.Tagged" "labels" = [] := by
    decide +kernel
  obtain ⟨e, he, hany⟩ := List.any_eq_true.1 hnodes
  simp only [List.any_eq_true, Bool.and_eq_true, beq_iff_eq] at hany
  obtain ⟨p, hp, ⟨hmalformed, hdeclarer⟩, hname⟩ := hany
  refine ⟨e, he, p, hp, hmalformed, hdeclarer, hname, ?_⟩
  rw [hdeclarer, hname]
  exact hfindings

end Run

end Metamodel
