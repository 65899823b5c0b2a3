import Metamodel.Proofs.Artifact.Binding
import Metamodel.Proofs.Artifact.Supply
import Metamodel.Proofs.Run.Files

/-!
# Names in the files of a run

A file of a run binds a name twice exactly when the names of its node clash, which `Graph.NamesApart`
rules out; if it does not, its attributes reference the metadata of the types that their relationships
lead to (`boundNames_process`). It binds whatever it uses in any case (`supplies_process`). Types of
one simple name in two packages clash where a third is related to both: then one expression stands
for the metadata of either (`exists_ambiguous_reference`).
-/

namespace Metamodel

namespace Run

variable {s : DeclarationSource} {config : Config} {outDir : String}

/-- The files of a run bind all names that they use. -/
theorem supplies_process {a : Artifact} {body : List (List Piece)}
    (h : (process s config outDir).graph.HasBody (deriveOptions config outDir) a body) :
    Piece.AllWithin a.BindsType a.BindsValue body :=
  h.supplies.of_isKeyed (isKeyed_graph_process s config outDir) (isClosed_graph_process s config outDir)

/-- Over identifiers, a file of a run binds no name twice exactly when its names do not clash, and
then each expression for related metadata denotes that of its own target. -/
theorem boundNames_process (h : ∀ d ∈ s.declarations, Naming.isIdentifier d.simpleName = true)
    {a : Artifact} (ha : a ∈ (process s config outDir).artifacts) :
    (a.boundNames.Nodup ↔
        (process s config outDir).graph.NamesApart (deriveOptions config outDir) a) ∧
      (a.boundNames.Nodup → ∀ m, a = .metadata m → ∀ x ∈ m.attributes,
        (process s config outDir).graph.ReferencesTarget (deriveOptions config outDir) m x) := by
  obtain ⟨-, ha⟩ := mem_artifacts_process_iff.1 ha
  have hg := isKeyed_graph_process s config outDir
  have hclosed := isClosed_graph_process s config outDir
  have hnames : ∀ e ∈ (process s config outDir).graph.nodes, e.HasClassNames :=
    hasClassNames_of_mem_nodes h
  refine ⟨Graph.nodup_boundNames_iff hg hclosed hnames ha, ?_⟩
  rintro hnodup m rfl x hx
  obtain ⟨e, he, rfl⟩ := Derivation.metadata_mem_artifacts_iff.1 ha
  exact Graph.referencesTarget hnames hclosed he hg hnodup hx

end Run

/-! ## Deliveries to addresses -/

namespace Sample

/-- A field that refers to another type. -/
def reference (name type : String) : Member :=
  ⟨name, .field, none, ⟨.named, type, none, none, none, none⟩, none, some [⟨"ManyToOne", none⟩], none⟩

def address (package : String) : Declaration :=
  { type .class "Address" ["Entity"] [] [field "id" ["Key"]] with
    packageName := package
    qualifiedName := some (package ++ ".Address") }

def delivery (references : List Member) : Declaration :=
  type .class "Delivery" ["Entity"] [] (field "id" ["Key"] :: references)

/-- Deliveries are to people. -/
def deliveries : List Declaration :=
  [delivery [reference "buyer" "people.Address"], address "people"]

/-- Deliveries are from stores to people. -/
def transports : List Declaration :=
  [delivery [reference "buyer" "people.Address", reference "stock" "store.Address"],
    address "people", address "store"]

/-- The type is related to an address of the package. -/
def knowsAddress (g : Graph) (e : Entity) (package : String) : Bool :=
  e.persistentProperties.any fun p => (g.edge? e.qualifiedName p.name).any fun edge =>
    edge.target.qualifiedName != e.qualifiedName && edge.target.simpleName == "Address" &&
      edge.target.packageName == package

theorem relates_of_knowsAddress {g : Graph} {e : Entity} {package : String}
    (h : knowsAddress g e package = true) :
    ∃ t, Derivation.Relates g e t ∧ t.simpleName = "Address" ∧ t.packageName = package := by
  obtain ⟨p, hp, hany⟩ := List.any_eq_true.1 h
  obtain ⟨edge, hedge, htarget⟩ := (Option.any_eq_true _ _).1 hany
  simp only [Bool.and_eq_true, bne_iff_ne, beq_iff_eq] at htarget
  obtain ⟨⟨hself, hsimple⟩, hpackage⟩ := htarget
  exact ⟨edge.target, ⟨p, hp, edge, hedge, rfl, hself⟩, hsimple, hpackage⟩

end Sample

namespace Run

theorem namesApart_deliveries (a : Artifact) : (Sample.run Sample.deliveries).graph.NamesApart
    (deriveOptions .default "generated") a := by
  have hnames : (Sample.run Sample.deliveries).graph.nodes.map (fun e =>
      (e.packageName, e.simpleName, e.qualifiedName, e.entityName)) =
        [("shop", "Delivery", "shop.Delivery", none), ("people", "Address", "people.Address", none)] :=
    by with_unfolding_all rfl
  have hcases {e : Entity} (he : e ∈ (Sample.run Sample.deliveries).graph.nodes) :
      (e.packageName, e.simpleName, e.qualifiedName, e.entityName) ∈
        [("shop", "Delivery", "shop.Delivery", none),
          ("people", "Address", "people.Address", none)] :=
    hnames ▸ List.mem_map_of_mem (f := fun e : Entity =>
      (e.packageName, e.simpleName, e.qualifiedName, e.entityName)) he
  simp only [List.mem_cons, Prod.mk.injEq, List.not_mem_nil, or_false] at hcases
  refine Graph.namesApart_of_defaults (isClosed_graph_process _ _ _) ?_ ?_ ?_ a
  · intro e he
    rcases hcases he with ⟨hpackage, hsimple, hname, hentity⟩ | ⟨hpackage, hsimple, hname, hentity⟩
    · exact ⟨hpackage ▸ Or.inr (by decide), by rw [hpackage, hsimple, hname]; rfl, hentity,
        by rw [hsimple]; decide⟩
    · exact ⟨hpackage ▸ Or.inr (by decide), by rw [hpackage, hsimple, hname]; rfl, hentity,
        by rw [hsimple]; decide⟩
  · intro e he
    rcases hcases he with ⟨-, hsimple, -⟩ | ⟨-, hsimple, -⟩
    · rw [hsimple]
      decide
    · rw [hsimple]
      decide
  · intro e he e' he' hsimple
    refine (isKeyed_graph_process _ _ _).node_eq he he' ?_
    rcases hcases he with ⟨-, h, hname, -⟩ | ⟨-, h, hname, -⟩ <;>
      rcases hcases he' with ⟨-, h', hname', -⟩ | ⟨-, h', hname', -⟩
    · rw [hname, hname']
    · rw [h, h'] at hsimple
      exact absurd hsimple (by decide)
    · rw [h, h'] at hsimple
      exact absurd hsimple (by decide)
    · rw [hname, hname']

theorem references_of_delivery :
    ∃ m, .metadata m ∈ (Sample.run Sample.deliveries).artifacts ∧
      m.attributes.map (·.referencedType) = [none, some "Address_.TYPE"] ∧
      (Artifact.metadata m).boundNames.Nodup ∧
      ∀ x ∈ m.attributes, (Sample.run Sample.deliveries).graph.ReferencesTarget
        (deriveOptions .default "generated") m x := by
  have hids : ∀ d ∈ Sample.deliveries, Naming.isIdentifier d.simpleName = true := by decide
  obtain ⟨m, ha, hreferences⟩ := Sample.exists_metadata Sample.deliveries
    (fun m => m.attributes.map (·.referencedType) == [none, some "Address_.TYPE"]) rfl
    (by with_unfolding_all rfl)
  obtain ⟨hiff, hdenotes⟩ := boundNames_process hids ha
  have hnodup := hiff.2 (namesApart_deliveries _)
  exact ⟨m, ha, eq_of_beq hreferences, hnodup, hdenotes hnodup _ rfl⟩

/-- A delivery is related to the addresses of people and of stores. Its metadata refers to both by one
expression and binds the name in it twice. -/
theorem exists_ambiguous_reference :
    (∀ d ∈ Sample.transports, Naming.isIdentifier d.simpleName = true) ∧
    ∃ m, .metadata m ∈ (Sample.run Sample.transports).artifacts ∧
      m.attributes.map (fun x => (x.name, x.referencedType)) =
        [("id", none), ("buyer", some "Address_.TYPE"), ("stock", some "Address_.TYPE")] ∧
      ((Sample.run Sample.transports).graph.edges.map fun edge =>
          (edge.property.name, edge.target.qualifiedName)) =
        [("buyer", "people.Address"), ("stock", "store.Address")] ∧
      ¬ (Artifact.metadata m).boundNames.Nodup := by
  have hids : ∀ d ∈ Sample.transports, Naming.isIdentifier d.simpleName = true := by decide
  have hnodes : ((Sample.run Sample.transports).graph.nodes.any fun e =>
      (Derivation.metadata (Sample.run Sample.transports).graph
          (deriveOptions .default "generated") e).attributes.map
        (fun x => (x.name, x.referencedType)) ==
          [("id", none), ("buyer", some "Address_.TYPE"), ("stock", some "Address_.TYPE")] &&
      Sample.knowsAddress (Sample.run Sample.transports).graph e "people" &&
      Sample.knowsAddress (Sample.run Sample.transports).graph e "store") = true := by
    with_unfolding_all rfl
  obtain ⟨e, he, hdelivery⟩ := List.any_eq_true.1 hnodes
  simp only [Bool.and_eq_true, beq_iff_eq] at hdelivery
  obtain ⟨⟨hattributes, hpeople⟩, hstore⟩ := hdelivery
  refine ⟨hids, _, metadata_mem_process_iff.2 ⟨rfl, e, he, rfl⟩, hattributes,
    by with_unfolding_all rfl, ?_⟩
  intro hnodup
  have happart := (Graph.nodup_boundNames_metadata_iff (hasClassNames_of_mem_nodes hids)
    (isClosed_graph_process _ _ _) he).1 hnodup
  obtain ⟨t, ht, hsimple, hpackage⟩ := Sample.relates_of_knowsAddress hpeople
  obtain ⟨t', ht', hsimple', hpackage'⟩ := Sample.relates_of_knowsAddress hstore
  have hparts := happart.targets t t' ht ht' (hsimple.trans hsimple'.symm)
  rw [hpackage, hpackage'] at hparts
  exact absurd hparts (by decide)

end Run

end Metamodel
