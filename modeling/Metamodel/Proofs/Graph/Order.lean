import Metamodel.Graph.Json
import Metamodel.Graph.Validation
import Metamodel.Proofs.Keyed
import Metamodel.Proofs.Text.Collation

/-!
# Graphs up to order

A node of a graph is known by its qualified name, and a relationship by its source and property
(`Graph.IsKeyed`). Graphs that have the same nodes and relationships in whatever order
(`Graph.SameContents`) answer every question alike: they are written as the same text
(`serialize_eq`) and their findings differ in order only (`validate_perm`). The order of the types
that a graph is assembled from shows in the order of its contents alone (`assemble_sameContents`).
-/

namespace Metamodel

/-- What a property of a graph is known by. -/
def OwnedProperty.key (op : OwnedProperty) : String × String :=
  (op.owner.qualifiedName, op.property.name)

/-- What a relationship is known by. -/
def Edge.key (e : Edge) : String × String :=
  (e.source.qualifiedName, e.property.name)

namespace Graph

/-- No two nodes and no two relationships are known by the same names. -/
structure IsKeyed (g : Graph) : Prop where
  nodes : (g.nodes.map Entity.qualifiedName).Nodup
  edges : (g.edges.map Edge.key).Nodup

theorem IsKeyed.node_eq {g : Graph} (h : g.IsKeyed) {e e' : Entity} (he : e ∈ g.nodes)
    (he' : e' ∈ g.nodes) (hname : e.qualifiedName = e'.qualifiedName) : e = e' :=
  List.inj_on_of_nodup_map h.nodes he he' hname

/-- The graphs differ at most in the order of their nodes and relationships. -/
structure SameContents (g g' : Graph) : Prop where
  nodes : g.nodes.Perm g'.nodes
  edges : g.edges.Perm g'.edges

/-! ## Questions to a graph -/

theorem SameContents.hasNode_eq {g g' : Graph} (h : g.SameContents g') (name : String) :
    g.hasNode name = g'.hasNode name :=
  h.nodes.any_eq

theorem edge?_eq_find? (g : Graph) (owner property : String) :
    g.edge? owner property = g.edges.find? (·.key == (owner, property)) := rfl

theorem SameContents.edge?_eq {g g' : Graph} (h : g.SameContents g') (hg : g.IsKeyed)
    (owner property : String) : g.edge? owner property = g'.edge? owner property := by
  rw [edge?_eq_find?, edge?_eq_find?, find?_perm h.edges hg.edges]

theorem SameContents.node?_eq {g g' : Graph} (h : g.SameContents g') (hg : g.IsKeyed)
    (name : String) : g.node? name = g'.node? name :=
  find?_perm h.nodes hg.nodes name

theorem SameContents.nodeFindings_eq {g g' : Graph} (h : g.SameContents g') :
    g.nodeFindings = g'.nodeFindings := by
  funext e
  unfold nodeFindings toManyNotCollection isDeclaredElsewhere
  rw [funext h.hasNode_eq]

/-- The findings of a graph do not depend on its order, except in their own. -/
theorem SameContents.validate_perm {g g' : Graph} (h : g.SameContents g') :
    g.validate.Perm g'.validate := by
  have hedge : g.danglingRelationship = g'.danglingRelationship := by
    funext e
    unfold danglingRelationship
    rw [funext h.hasNode_eq]
  unfold validate
  rw [h.nodeFindings_eq, hedge]
  exact (h.nodes.flatMap_right _).append (h.edges.flatMap_right _)

/-! ## Writing a graph -/

instance : Std.TransCmp compareEdges :=
  have : Std.TransCmp fun a b : Edge =>
      Text.collate a.source.qualifiedName b.source.qualifiedName :=
    Text.transCmp_on fun e : Edge => e.source.qualifiedName
  have : Std.TransCmp fun a b : Edge => Text.collate a.property.name b.property.name :=
    Text.transCmp_on fun e : Edge => e.property.name
  inferInstanceAs (Std.TransCmp (compareLex
    (fun a b : Edge => Text.collate a.source.qualifiedName b.source.qualifiedName)
    fun a b : Edge => Text.collate a.property.name b.property.name))

theorem key_eq_of_compareEdges_eq {a b : Edge} (h : compareEdges a b = .eq) : a.key = b.key := by
  unfold compareEdges at h
  rw [Ordering.then_eq_eq] at h
  exact Prod.ext (Text.eq_of_collate_eq h.1) (Text.eq_of_collate_eq h.2)

/-- The text of a graph does not depend on its order. -/
theorem SameContents.serialize_eq {g g' : Graph} (h : g.SameContents g') (hg : g.IsKeyed) :
    g.serialize = g'.serialize := by
  have hnodes : Text.collatedBy Entity.qualifiedName g.nodes =
      Text.collatedBy Entity.qualifiedName g'.nodes := Text.collatedBy_perm h.nodes hg.nodes
  have hedges : g.edges.mergeSort (fun a b => (compareEdges a b).isLE) =
      g'.edges.mergeSort fun a b => (compareEdges a b).isLE := by
    refine Text.mergeSort_perm_eq inferInstance h.edges fun a ha b hb hab => ?_
    exact List.inj_on_of_nodup_map hg.edges ha hb (key_eq_of_compareEdges_eq hab)
  rw [serialize, serialize, toJson, toJson, hnodes, hedges]

/-! ## Assembling a graph -/

theorem distinctNodes_eq (es : List Entity) : distinctNodes es = firstBy Entity.qualifiedName es :=
  (firstBy_eq_foldl es).symm

theorem lastNamed?_eq_find? {es : List Entity} (h : (es.map Entity.qualifiedName).Nodup)
    (name : String) : lastNamed? es name = es.find? (·.qualifiedName == name) :=
  (find?_perm es.reverse_perm.symm h name).symm

section

variable {es es' ss ss' ms ms' : List Entity}

theorem targetOf?_perm (he : es.Perm es') (hs : ss.Perm ss')
    (hes : (es.map Entity.qualifiedName).Nodup) (hss : (ss.map Entity.qualifiedName).Nodup) :
    targetOf? es ss = targetOf? es' ss' := by
  have hes' := (he.map Entity.qualifiedName).nodup_iff.1 hes
  have hss' := (hs.map Entity.qualifiedName).nodup_iff.1 hss
  have hentity : lastNamed? es = lastNamed? es' := by
    funext name
    rw [lastNamed?_eq_find? hes, lastNamed?_eq_find? hes', find?_perm he hes]
  have hsuper : lastNamed? ss = lastNamed? ss' := by
    funext name
    rw [lastNamed?_eq_find? hss, lastNamed?_eq_find? hss', find?_perm hs hss]
  unfold targetOf?
  rw [hentity, hsuper]

/-- Of types with one name, the one that becomes the node depends on their kinds alone. -/
theorem distinctNodes_perm (he : es.Perm es') (hs : ss.Perm ss') (hm : ms.Perm ms')
    (hes : (es.map Entity.qualifiedName).Nodup) (hss : (ss.map Entity.qualifiedName).Nodup)
    (hms : (ms.map Entity.qualifiedName).Nodup) :
    (distinctNodes (es ++ ss ++ ms)).Perm (distinctNodes (es' ++ ss' ++ ms')) := by
  rw [distinctNodes_eq, distinctNodes_eq, List.perm_ext_iff_of_nodup
    (List.Nodup.of_map _ (nodup_map_firstBy _)) (List.Nodup.of_map _ (nodup_map_firstBy _))]
  intro e
  rw [mem_firstBy_iff, mem_firstBy_iff]
  simp only [List.find?_append]
  rw [find?_perm he hes, find?_perm hs hss, find?_perm hm hms]

/-- The order of the types shows in a graph in the order of its contents alone. -/
theorem assemble_sameContents (he : es.Perm es') (hs : ss.Perm ss') (hm : ms.Perm ms')
    (hes : (es.map Entity.qualifiedName).Nodup) (hss : (ss.map Entity.qualifiedName).Nodup)
    (hms : (ms.map Entity.qualifiedName).Nodup) :
    (assemble es ss ms).SameContents (assemble es' ss' ms') := by
  have hnodes := distinctNodes_perm he hs hm hes hss hms
  refine ⟨hnodes, ?_⟩
  unfold assemble
  rw [targetOf?_perm he hs hes hss]
  exact (hnodes.flatMap_right _).filterMap _

end

section

variable {es ss ms : List Entity}
  (h : ∀ e ∈ es ++ ss ++ ms, (e.properties.map Property.name).Nodup)

include h

/-- No two properties are known by the same names, when those of each type have distinct ones. -/
theorem nodup_properties_assemble :
    ((assemble es ss ms).properties.map OwnedProperty.key).Nodup := by
  have hnodes : ((distinctNodes (es ++ ss ++ ms)).map Entity.qualifiedName).Nodup := by
    rw [distinctNodes_eq]
    exact nodup_map_firstBy _
  simp only [assemble, List.map_flatMap, List.map_map]
  refine List.nodup_flatMap.2 ⟨fun o ho => ?_, ?_⟩
  · rw [distinctNodes_eq] at ho
    have hnames := h o ((firstBy_sublist _).subset ho)
    have hpairs := hnames.map fun a b (hab : (o.qualifiedName, a) = (o.qualifiedName, b)) =>
      (Prod.mk.inj hab).2
    rwa [List.map_map] at hpairs
  · refine (List.pairwise_map.1 hnodes).imp fun {a b} hab => ?_
    intro k hka hkb
    obtain ⟨p, -, rfl⟩ := List.mem_map.1 hka
    obtain ⟨q, -, hq⟩ := List.mem_map.1 hkb
    exact hab (Prod.mk.inj hq).1.symm

/-- A graph of types whose properties have distinct names is keyed. -/
theorem isKeyed_assemble : (assemble es ss ms).IsKeyed := by
  refine ⟨?_, (nodup_properties_assemble h).sublist ?_⟩
  · show ((distinctNodes (es ++ ss ++ ms)).map Entity.qualifiedName).Nodup
    rw [distinctNodes_eq]
    exact nodup_map_firstBy _
  -- every edge is known by the names of its property
  rw [← List.filterMap_eq_map (f := OwnedProperty.key)]
  simp only [assemble, List.map_filterMap]
  refine filterMap_sublist_filterMap fun op k hk => ?_
  obtain ⟨e, he, rfl⟩ := Option.map_eq_some_iff.1 hk
  obtain ⟨target, -, rfl⟩ := Option.map_eq_some_iff.1 he
  rfl

end

end Graph

end Metamodel
