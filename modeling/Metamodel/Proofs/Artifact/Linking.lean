import Metamodel.Proofs.Artifact.Import
import Metamodel.Proofs.Artifact.Specifier
import Metamodel.Proofs.Graph.Assembly

/-!
# Imports between generated files

A generated file imports names of the runtime, the type that declares its node, and generated
classes. The specifier of a generated class leads to the file that declares it, wherever the output
directory lies (`links_specifier`, `links_sibling`). So the imports of a graph whose relationships
lead to nodes are all accounted for (`imports_link`), and those of other graphs need not be
(`exists_unlinked_import`).
-/

namespace Metamodel

open Path

namespace Derivation

variable {g : Graph} {o : DeriveOptions} {e : Entity} {r : ImportRequest}

/-- What generated files use of the runtime. -/
def runtimeNames : List String :=
  ["AttributeBuilder", "TypeBuilder", "Attribute", "Type", "Cardinality", "describeEntity",
    "hashValues", "valueEquals", "PropertyState", "createEntityModel", "EntityModel"]

/-- The import of a runtime's name. -/
def IsRuntimeRequest (o : DeriveOptions) (r : ImportRequest) : Prop :=
  r.module = o.runtimeModule ∧ r.name ∈ runtimeNames

/-- The import of the type that declares a node, by a file of the node. -/
def sourceRequest (o : DeriveOptions) (e : Entity) (className : String) (typeOnly : Bool) :
    ImportRequest :=
  ⟨specifier (join [o.outDir, outputFile e className]) (sourceModule e), e.simpleName, typeOnly⟩

/-- The import of a generated class of a node, by the metadata of a node. -/
def classRequest (o : DeriveOptions) (e target : Entity) (className : String) : ImportRequest :=
  ⟨specifier (join [o.outDir, outputFile e e.metadataClass]) (generatedModule o target className),
    className, false⟩

theorem isRuntimeRequest {name : String} (h : name ∈ runtimeNames) (typeOnly : Bool) :
    IsRuntimeRequest o ⟨o.runtimeModule, name, typeOnly⟩ :=
  ⟨rfl, h⟩

theorem brings_implementation_cases (h : Import.Brings (implementation o e).imports r) :
    IsRuntimeRequest o r ∨ r = sourceRequest o e e.implementationClass e.isInterface := by
  have hr := Import.brings_collect_iff.1 h
  simp only [List.mem_append, List.mem_cons, List.not_mem_nil, or_false] at hr
  rcases hr with ((rfl | rfl | rfl) | hr) | rfl
  · exact Or.inl (isRuntimeRequest (by decide) _)
  · exact Or.inl (isRuntimeRequest (by decide) _)
  · exact Or.inl (isRuntimeRequest (by decide) _)
  · split at hr
    · rw [List.mem_singleton.1 hr]
      exact Or.inl (isRuntimeRequest (by decide) _)
    · cases hr
  · exact Or.inr rfl

theorem mem_attributeRequests {file : String} {p : Property}
    (h : r ∈ attributeRequests g e o file p) :
    IsRuntimeRequest o r ∨ ∃ edge ∈ g.edges,
      r = ⟨specifier file (generatedModule o edge.target edge.target.metadataClass),
        edge.target.metadataClass, false⟩ := by
  unfold attributeRequests at h
  rcases List.mem_append.1 h with h | h
  · cases hedge : g.edge? e.qualifiedName p.name with
    | none =>
      rw [hedge] at h
      cases h
    | some edge =>
      simp only [hedge] at h
      split at h
      · cases h
      · exact Or.inr ⟨edge, List.mem_of_find?_eq_some hedge, List.mem_singleton.1 h⟩
  · split at h
    · rw [List.mem_singleton.1 h]
      exact Or.inl (isRuntimeRequest (by decide) _)
    · cases h

theorem brings_metadata_cases (h : Import.Brings (metadata g o e).imports r) :
    IsRuntimeRequest o r ∨ r = sourceRequest o e e.metadataClass true ∨
      (e.hasImplementation = true ∧ r = classRequest o e e e.implementationClass) ∨
        ∃ edge ∈ g.edges, r = classRequest o e edge.target edge.target.metadataClass := by
  have hr := Import.brings_collect_iff.1 h
  simp only [List.mem_append, List.mem_cons, List.not_mem_nil, or_false, List.mem_map,
    List.mem_flatMap] at hr
  rcases hr with ((rfl | rfl | rfl | rfl | rfl) | ⟨c, hc, rfl⟩) | ⟨p, -, hp⟩
  · exact Or.inl (isRuntimeRequest (by decide) _)
  · exact Or.inl (isRuntimeRequest (by decide) _)
  · exact Or.inl (isRuntimeRequest (by decide) _)
  · exact Or.inl (isRuntimeRequest (by decide) _)
  · exact Or.inr (Or.inl rfl)
  · rw [Option.mem_toList, Option.filter_eq_some_iff] at hc
    obtain ⟨hc, -⟩ := hc
    split at hc
    · rename_i himpl
      cases hc
      exact Or.inr (Or.inr (Or.inl ⟨himpl, rfl⟩))
    · cases hc
  · exact (mem_attributeRequests hp).imp_right fun hedge => Or.inr (Or.inr hedge)

theorem brings_implementationClass (h : e.hasImplementation = true)
    (hne : e.implementationClass ≠ "") :
    Import.Brings (metadata g o e).imports (classRequest o e e e.implementationClass) := by
  refine Import.brings_collect_iff.2 (List.mem_append_left _ (List.mem_append_right _ ?_))
  refine List.mem_map.2 ⟨e.implementationClass, ?_, rfl⟩
  rw [Option.mem_toList, Option.filter_eq_some_iff, if_pos h]
  exact ⟨rfl, by simpa using hne⟩

theorem brings_related {p : Property} {edge : Edge} (hp : p ∈ e.persistentProperties)
    (hedge : g.edge? e.qualifiedName p.name = some edge)
    (hne : edge.target.qualifiedName ≠ e.qualifiedName) :
    Import.Brings (metadata g o e).imports
      (classRequest o e edge.target edge.target.metadataClass) := by
  refine Import.brings_collect_iff.2 (List.mem_append_right _ (List.mem_flatMap.2 ⟨p, hp, ?_⟩))
  unfold attributeRequests
  simp only [hedge, if_neg hne]
  exact List.mem_append_left _ (List.mem_singleton.2 rfl)

theorem brings_registry_cases {p : String}
    (h : Import.Brings (packageRegistry g o p).imports r) :
    IsRuntimeRequest o r ∨ ∃ e ∈ g.nodes, e.packageName = p ∧
      r = ⟨"./" ++ e.metadataClass, e.metadataClass, false⟩ := by
  have hr := Import.brings_collect_iff.1 h
  simp only [List.mem_append, List.mem_cons, List.not_mem_nil, or_false, List.mem_map,
    List.mem_filter] at hr
  rcases hr with (rfl | rfl) | ⟨_, ⟨_, ⟨⟨⟨e, he, rfl⟩, -⟩, hp⟩, rfl⟩, rfl⟩
  · exact Or.inl (isRuntimeRequest (by decide) _)
  · exact Or.inl (isRuntimeRequest (by decide) _)
  · exact Or.inr ⟨e, he, eq_of_beq hp, rfl⟩

end Derivation

/-! ## Where imports lead -/

theorem Path.absolute_concat_append (segs : List String) (s tail : String) :
    absolute (segs ++ [s]) ++ tail = absolute (segs ++ [s ++ tail]) := by
  unfold absolute
  by_cases h : segs = []
  · rw [h]
    exact String.append_assoc
  · rw [ofSegments_concat h, ofSegments_concat h]
    simp only [String.append_assoc]

section Output

variable {name : String} (h : '/' ∉ name.toList) (dir p : String)
include h

/-- Where a file lies in the output directory. -/
theorem resolvedSegments_packageFile :
    resolvedSegments [join [dir, packageFile p name]] =
      resolvedSegments [dir] ++ packageParts p ++ [name ++ ".ts"] := by
  rw [resolvedSegments_join_cons, List.flatMap_singleton, course_packageFile_of_name h,
    Course.follow_of_up_eq_zero rfl, List.append_assoc]

theorem resolvedSegments_directory_packageFile :
    resolvedSegments [directory (join [dir, packageFile p name])] =
      resolvedSegments [dir] ++ packageParts p := by
  have hfile := ((endsIn_packageFile h p).join [dir]).resolvedSegments_directory
  rw [List.singleton_append, resolvedSegments_packageFile h] at hfile
  exact (List.append_cancel_right hfile).symm

end Output

/-- Where a generated module lies in the output directory. -/
theorem resolvedSegments_module {name : String} (h : IsName name) (dir p : String) :
    resolvedSegments [join [dir, packageDirectory p, name]] =
      resolvedSegments [dir] ++ packageParts p ++ [name] := by
  have hparts : [packageDirectory p, name].flatMap segments =
      segments (packageDirectory p) ++ [name] := by
    simp [segments_of_notMem h.noSlash]
  rw [resolvedSegments_join_cons, hparts, course_append_name _ h, course_packageDirectory,
    Course.follow_of_up_eq_zero rfl, List.append_assoc]

namespace Artifact

/-- The file names a generated class, its own or another. -/
def Names (a : Artifact) (c : String) : Prop :=
  match a with
  | .implementation _ => False
  | .metadata m => m.implementationClass = some c ∨
      ∃ p ∈ m.attributes, p.referencedType = some (c ++ ".TYPE")
  | .registry m => c ∈ m.types

/-- The import leads from the one file to the class that the other declares, by a relative path. -/
structure Links (o : DeriveOptions) (a b : Artifact) (r : ImportRequest) : Prop where
  name : b.className? = some r.name
  path : resolve [directory (join [o.outDir, a.fileName]), r.module] ++ ".ts" =
    resolve [join [o.outDir, b.fileName]]
  relative : r.module = ".." ∨ IsDotted r.module

variable {o : DeriveOptions} {a b : Artifact} {p q name c : String}

/-- The specifier of a generated class leads to the file of the class. -/
theorem links_specifier (hname : '/' ∉ name.toList) (hc : Naming.isIdentifier c = true)
    (ha : a.fileName = packageFile p name) (hb : b.fileName = packageFile q c)
    (hclass : b.className? = some c) (typeOnly : Bool) :
    a.Links o b ⟨Derivation.specifier (join [o.outDir, packageFile p name])
      (join [o.outDir, packageDirectory q, c]), c, typeOnly⟩ where
  name := hclass
  path := by
    have hmodule := resolvedSegments_module (Naming.isName_of_isIdentifier hc) o.outDir q
    have hfile := resolvedSegments_packageFile (Naming.noSlash_of_isIdentifier hc) o.outDir q
    rw [ha, hb, Derivation.resolve_specifier, resolve, resolve, hmodule, hfile,
      absolute_concat_append]
  relative := by
    dsimp only
    by_cases hdots : Derivation.stepsTo (join [o.outDir, packageFile p name])
        (join [o.outDir, packageDirectory q, c]) = [".."]
    · exact Or.inl (Derivation.specifier_of_dots hdots)
    · refine Or.inr (Derivation.isDotted_specifier_iff_steps.2 ⟨hdots, fun s hs => ?_⟩)
      have hmem := List.mem_of_mem_head? hs
      -- below the output directory, no step is to a name with a dot
      rw [Derivation.stepsTo, resolvedSegments_directory_packageFile hname,
        resolvedSegments_module (Naming.isName_of_isIdentifier hc), List.append_assoc,
        relativeSegments_append] at hmem
      refine (mem_relativeSegments hmem).imp_right fun hs hhead => ?_
      have hdot := List.mem_of_mem_head? hhead
      rcases List.mem_append.1 hs with hs | hs
      · exact dot_notMem_of_mem_packageParts hs hdot
      · rw [List.mem_singleton.1 hs] at hdot
        exact absurd (Naming.isIdentifierChar_of_mem hc hdot) (by decide)

/-- A class in the same directory is one step away. -/
theorem links_sibling (hname : '/' ∉ name.toList) (hc : Naming.isIdentifier c = true)
    (ha : a.fileName = packageFile p name) (hb : b.fileName = packageFile p c)
    (hclass : b.className? = some c) (typeOnly : Bool) :
    a.Links o b ⟨"./" ++ c, c, typeOnly⟩ where
  name := hclass
  path := by
    have hcname := Naming.isName_of_isIdentifier hc
    have hrelative : isAbsolute ("./" ++ c) = false := by
      rw [isAbsolute_append (by decide)]
      decide
    have hcourse : course (segments ("./" ++ c)) = ⟨0, [c]⟩ := by
      rw [segments_dot_slash, segments_of_notMem hcname.noSlash, course_idle_cons (Or.inr rfl),
        course_name hcname]
    have hfile := resolvedSegments_packageFile hcname.noSlash o.outDir p
    rw [ha, hb, resolve, resolve, resolvedSegments_pair hrelative, hcourse,
      resolvedSegments_directory_packageFile hname, hfile, Course.follow_of_up_eq_zero rfl,
      absolute_concat_append]
  relative := Or.inr ⟨c, Or.inl rfl⟩

end Artifact

namespace Graph

open Derivation

variable {g : Graph} {o : DeriveOptions}

/-- The import of the type that declares a node, by one of the files of the node. -/
def IsSourceRequest (g : Graph) (o : DeriveOptions) (a : Artifact) (r : ImportRequest) : Prop :=
  ∃ e ∈ g.nodes, a ∈ nodeArtifacts g o e ∧ ∃ c, a.className? = some c ∧
    ∃ typeOnly, r = sourceRequest o e c typeOnly

/-- The import of a class that is not generated, because the relationship leads to no node. -/
def IsDanglingRequest (g : Graph) (o : DeriveOptions) (a : Artifact) (r : ImportRequest) : Prop :=
  ∃ e ∈ g.nodes, a = .metadata (metadata g o e) ∧ ∃ edge ∈ g.edges, edge.target ∉ g.nodes ∧
    r = classRequest o e edge.target edge.target.metadataClass

theorem links_metadata (hnames : ∀ e ∈ g.nodes, e.HasClassNames) {e target : Entity}
    (he : e ∈ g.nodes) (ht : target ∈ g.nodes) :
    ∃ b ∈ g.artifacts o, (Artifact.metadata (metadata g o e)).Links o b
      (classRequest o e target target.metadataClass) :=
  ⟨_, metadata_mem_artifacts_iff.2 ⟨target, ht, rfl⟩,
    Artifact.links_specifier (Naming.noSlash_of_isIdentifier (hnames e he).metadata)
      (hnames target ht).metadata rfl rfl rfl false⟩

theorem links_implementation (hnames : ∀ e ∈ g.nodes, e.HasClassNames) {e : Entity}
    (he : e ∈ g.nodes) (himpl : e.hasImplementation = true) :
    ∃ b ∈ g.artifacts o, (Artifact.metadata (metadata g o e)).Links o b
      (classRequest o e e e.implementationClass) :=
  ⟨_, implementation_mem_artifacts_iff.2 ⟨e, he, himpl, rfl⟩,
    Artifact.links_specifier (Naming.noSlash_of_isIdentifier (hnames e he).metadata)
      ((hnames e he).implementation himpl) rfl rfl rfl false⟩

theorem links_registry (hnames : ∀ e ∈ g.nodes, e.HasClassNames) {e : Entity} (he : e ∈ g.nodes) :
    ∃ b ∈ g.artifacts o, (Artifact.registry (packageRegistry g o e.packageName)).Links o b
      ⟨"./" ++ e.metadataClass, e.metadataClass, false⟩ := by
  have hmodels : '/' ∉ "Models".toList := by decide
  exact ⟨_, metadata_mem_artifacts_iff.2 ⟨e, he, rfl⟩,
    Artifact.links_sibling hmodels (hnames e he).metadata rfl rfl rfl false⟩

/-- Relationships lead to nodes. -/
def IsClosed (g : Graph) : Prop :=
  ∀ edge ∈ g.edges, edge.target ∈ g.nodes

theorem isClosed_assemble {es ss ms : List Entity} (hes : (es.map Entity.qualifiedName).Nodup)
    (hss : (ss.map Entity.qualifiedName).Nodup) : (assemble es ss ms).IsClosed := by
  intro edge hedge
  obtain ⟨-, -, htarget⟩ := mem_edges_assemble_iff.1 hedge
  exact mem_nodes_of_targetOf? hes hss htarget

/-- The classes that a file names are its own or imported from the files that declare them. -/
theorem names_link (hg : g.IsKeyed) (hclosed : g.IsClosed)
    (hnames : ∀ e ∈ g.nodes, e.HasClassNames) {a : Artifact} (ha : a ∈ g.artifacts o) {c : String}
    (hc : a.Names c) :
    a.className? = some c ∨
      ∃ r, Import.Brings a.imports r ∧ r.name = c ∧ ∃ b ∈ g.artifacts o, a.Links o b r := by
  rcases mem_artifacts_cases ha with ⟨e, -, -, rfl⟩ | ⟨e, he, rfl⟩ | ⟨-, e, he, -, rfl⟩
  · cases hc
  · rcases hc with himpl | ⟨_, hattribute, hreferenced⟩
    · have himpl : (if e.hasImplementation then some e.implementationClass else none) = some c :=
        himpl
      split at himpl
      · rename_i h
        cases himpl
        have hid := (hnames e he).implementation h
        have hne := (Naming.isName_of_isIdentifier hid).ne_empty
        exact Or.inr ⟨_, brings_implementationClass h hne, rfl, links_implementation hnames he h⟩
      · cases himpl
    · obtain ⟨p, hp, rfl⟩ := List.mem_map.1 hattribute
      obtain ⟨edge, hedge, htype⟩ := Option.map_eq_some_iff.1 hreferenced
      have hclass : edge.target.metadataClass = c := by
        rw [← String.toList_inj, String.toList_append, String.toList_append] at htype
        exact String.toList_inj.1 (List.append_cancel_right htype)
      have htarget := hclosed edge (List.mem_of_find?_eq_some hedge)
      by_cases hself : edge.target.qualifiedName = e.qualifiedName
      · rw [hg.node_eq htarget he hself] at hclass
        exact Or.inl (congrArg some hclass)
      · exact Or.inr ⟨_, brings_related hp hedge hself, hclass, links_metadata hnames he htarget⟩
  · have htypes : c ∈ Text.collated _ := hc
    rw [Text.mem_collated_iff, List.mem_map] at htypes
    obtain ⟨m, hm, rfl⟩ := htypes
    have hmember := (List.mem_filter.1 hm).1
    obtain ⟨e', he', rfl⟩ := List.mem_map.1 (List.mem_filter.1 hmember).1
    have hpackage : e'.packageName = e.packageName := eq_of_beq (List.mem_filter.1 hm).2
    refine Or.inr ⟨⟨"./" ++ e'.metadataClass, e'.metadataClass, false⟩, ?_, rfl,
      hpackage ▸ links_registry hnames he'⟩
    refine Import.brings_collect_iff.2 (List.mem_append_right _ ?_)
    exact List.mem_map.2 ⟨_, List.mem_map_of_mem hm, rfl⟩

/-- Every import of a generated file is one of the runtime, that of the declaring type, or leads to
the file of a generated class under the name of the class, unless its relationship is dangling. -/
theorem imports_link (hnames : ∀ e ∈ g.nodes, e.HasClassNames) {a : Artifact}
    (ha : a ∈ g.artifacts o) {r : ImportRequest} (hr : Import.Brings a.imports r) :
    IsRuntimeRequest o r ∨ g.IsSourceRequest o a r ∨ g.IsDanglingRequest o a r ∨
      ∃ b ∈ g.artifacts o, a.Links o b r := by
  rcases mem_artifacts_cases ha with ⟨e, he, himpl, rfl⟩ | ⟨e, he, rfl⟩ | ⟨-, e, he, -, rfl⟩
  · refine (brings_implementation_cases hr).imp_right fun hsource => Or.inl ?_
    exact ⟨e, he, mem_nodeArtifacts_iff.2 (Or.inl ⟨himpl, rfl⟩), _, rfl, _, hsource⟩
  · rcases brings_metadata_cases hr with hruntime | hsource | ⟨himpl, rfl⟩ | ⟨edge, hedge, rfl⟩
    · exact Or.inl hruntime
    · exact Or.inr (Or.inl ⟨e, he, mem_nodeArtifacts_iff.2 (Or.inr rfl), _, rfl, _, hsource⟩)
    · exact Or.inr (Or.inr (Or.inr (links_implementation hnames he himpl)))
    · by_cases htarget : edge.target ∈ g.nodes
      · exact Or.inr (Or.inr (Or.inr (links_metadata hnames he htarget)))
      · exact Or.inr (Or.inr (Or.inl ⟨e, he, rfl, edge, hedge, htarget, rfl⟩))
  · rcases brings_registry_cases hr with hruntime | ⟨e', he', hp, rfl⟩
    · exact Or.inl hruntime
    · exact Or.inr (Or.inr (Or.inr (hp ▸ links_registry hnames he')))

end Graph

/-! ## Two packages -/

namespace Sample

def buyer : Entity := { customer with packageName := "shop.people" }

def sale : Entity := { purchase .entity with packageName := "shop.sales" }

/-- The output goes beside the project. -/
def beside : DeriveOptions := ⟨"runtime", "../generated", true⟩

def people : Graph := Graph.assemble [buyer, sale] [] []

/-- The purchases of a customer lead to no node. -/
def dangling : Graph := { people with nodes := [buyer] }

theorem hasClassNames_people : ∀ e ∈ people.nodes, e.HasClassNames := by
  intro e he
  have he' : e ∈ [buyer, sale] := he
  simp only [List.mem_cons, List.not_mem_nil, or_false] at he'
  rcases he' with rfl | rfl
  · exact ⟨by decide, fun _ => by decide⟩
  · exact ⟨by decide, fun _ => by decide⟩

theorem brings_sale {g : Graph} (h : g.edges = people.edges) :
    Import.Brings (Derivation.metadata g beside buyer).imports
      ⟨"../sales/Purchase_", "Purchase_", false⟩ := by
  have hrequest : Derivation.classRequest beside buyer sale sale.metadataClass =
      ⟨"../sales/Purchase_", "Purchase_", false⟩ := by decide +kernel
  have hedge : g.edge? buyer.qualifiedName purchases.name = some ⟨buyer, sale, purchases⟩ := by
    unfold Graph.edge?
    rw [h]
    rfl
  have hne : sale.qualifiedName ≠ buyer.qualifiedName := by decide +kernel
  have hstored : purchases ∈ buyer.persistentProperties := List.mem_cons_self
  have hbrings := Derivation.brings_related (o := beside) hstored hedge hne
  rw [← hrequest]
  exact hbrings

end Sample

namespace Graph

open Derivation

theorem links_sale :
    Import.Brings (metadata Sample.people Sample.beside Sample.buyer).imports
        ⟨"../sales/Purchase_", "Purchase_", false⟩ ∧
      ∃ b ∈ Sample.people.artifacts Sample.beside,
        (Artifact.metadata (metadata Sample.people Sample.beside Sample.buyer)).Links Sample.beside b
          ⟨"../sales/Purchase_", "Purchase_", false⟩ := by
  have hclosed : Sample.people.IsClosed := isClosed_assemble (by decide +kernel) List.nodup_nil
  have ha : .metadata (metadata Sample.people Sample.beside Sample.buyer) ∈
      Sample.people.artifacts Sample.beside :=
    metadata_mem_artifacts_iff.2 ⟨_, List.mem_cons_self, rfl⟩
  have hbrings := Sample.brings_sale (g := Sample.people) rfl
  refine ⟨hbrings, ?_⟩
  rcases imports_link Sample.hasClassNames_people ha hbrings with
    ⟨-, hruntime⟩ | ⟨e, he, -, _, -, _, hsource⟩ | ⟨-, -, -, edge, hedge, htarget, -⟩ | hlinks
  · exact absurd hruntime (by decide)
  · have hsimple : "Purchase_" = e.simpleName := congrArg ImportRequest.name hsource
    have he' : e ∈ [Sample.buyer, Sample.sale] := he
    simp only [List.mem_cons, List.not_mem_nil, or_false] at he'
    rcases he' with rfl | rfl
    · exact absurd hsimple (by decide)
    · exact absurd hsimple (by decide)
  · exact absurd (hclosed edge hedge) htarget
  · exact hlinks

/-- The metadata of a customer imports that of its purchases, which is not generated when those are
no node. -/
theorem exists_unlinked_import :
    (∀ e ∈ Sample.dangling.nodes, e.HasClassNames ∧ IsProperPackage e.packageName) ∧
      .metadata (metadata Sample.dangling Sample.beside Sample.buyer) ∈
        Sample.dangling.artifacts Sample.beside ∧
      Import.Brings (metadata Sample.dangling Sample.beside Sample.buyer).imports
        ⟨"../sales/Purchase_", "Purchase_", false⟩ ∧
      ∀ b ∈ Sample.dangling.artifacts Sample.beside, b.className? ≠ some "Purchase_" := by
  have hbuyer (e : Entity) (he : e ∈ Sample.dangling.nodes) : e = Sample.buyer :=
    List.mem_singleton.1 he
  have hproper : IsProperPackage Sample.buyer.packageName := Or.inr (by decide +kernel)
  refine ⟨fun e he => ?_, metadata_mem_artifacts_iff.2 ⟨_, List.mem_cons_self, rfl⟩,
    Sample.brings_sale rfl, fun b hb => ?_⟩
  · rw [hbuyer e he]
    exact ⟨Sample.hasClassNames_people _ List.mem_cons_self, hproper⟩
  · rcases mem_artifacts_cases hb with ⟨e, he, -, rfl⟩ | ⟨e, he, rfl⟩ | ⟨-, e, -, -, rfl⟩
    · rw [hbuyer e he]
      show some "GeneratedCustomer" ≠ some "Purchase_"
      decide
    · rw [hbuyer e he]
      show some "Customer_" ≠ some "Purchase_"
      decide
    · exact nofun

end Graph

end Metamodel
