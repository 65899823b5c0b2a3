import Metamodel.Proofs.Artifact.MemberNames
import Metamodel.Proofs.Run.Access

/-!
# Members of the classes of a run

The names of properties are distinct, but those of the members that a run makes of them need not be.
The static members of a metadata class are distinct exactly when the constants of its properties are
(`staticNames_process`), and the members of an implementation when no two properties clash in one of
five ways (`memberNames_process`). For names in camel case, little of this can happen.
-/

namespace Metamodel

namespace Run

variable {s : DeclarationSource} {config : Config} {outDir : String}

/-- The static members of a metadata class are the constants of the stored properties, and two fixed
ones. Their names are distinct exactly when the constants are apart: among names in camel case,
when no property is called like a fixed member. -/
theorem staticNames_process {m : MetadataArtifact}
    (hm : .metadata m ∈ (process s config outDir).artifacts) :
    ∃ e ∈ (process s config outDir).graph.nodes,
      m = Derivation.metadata (process s config outDir).graph (deriveOptions config outDir) e ∧
      m.staticNames = (e.persistentProperties.map fun p => Naming.upperUnderscore p.name) ++
        ["TYPE", "INSTANCE"] ∧
      (m.staticNames.Nodup ↔ e.ConstantsApart) ∧
      ((∀ p ∈ e.persistentProperties, Naming.IsCamelCase p.name) →
        (m.staticNames.Nodup ↔
          ∀ p ∈ e.persistentProperties, p.name ≠ "type" ∧ p.name ≠ "instance")) := by
  obtain ⟨-, e, he, rfl⟩ := metadata_mem_process_iff.1 hm
  have hiff := nodup_staticNames_iff (g := (process s config outDir).graph)
    (o := deriveOptions config outDir) (nodup_names_of_mem_nodes he)
  refine ⟨e, he, rfl, ?_, hiff, fun hcamel => hiff.trans (Entity.constantsApart_iff hcamel)⟩
  rw [MetadataArtifact.staticNames_eq]
  show (e.persistentProperties.map (Derivation.attributeModel _ e)).map _ ++ _ = _
  rw [List.map_map]
  rfl

/-- The members of an implementation have distinct names, and its methods none of other properties,
exactly when the members of the type do not clash. Where the names of properties begin with small
letters, the members are distinct if only the methods have no names of properties. -/
theorem memberNames_process {i : ImplementationArtifact}
    (hi : .implementation i ∈ (process s config outDir).artifacts) :
    ∃ e ∈ (process s config outDir).graph.nodes,
      i = Derivation.implementation (deriveOptions config outDir) e ∧
      (i.memberNames.Nodup ∧ i.MethodsApart ↔ e.MembersApart) ∧
      ((∀ p ∈ e.properties, Naming.IsSmall p.name) → i.MethodsApart → i.memberNames.Nodup) := by
  obtain ⟨-, e, he, himpl, rfl⟩ := implementation_mem_process_iff.1 hi
  obtain ⟨d, -, -, hmembers⟩ :=
    exists_declaration_of_mem_builtOf (mem_builtOf_of_hasImplementation he himpl)
  have hnamed (p : Property) (hp : p ∈ e.properties) : p.IsNamed := (hmembers p hp).1
  have hiff := Derivation.membersApart_iff (deriveOptions config outDir) hnamed
    (nodup_names_of_mem_nodes he)
  refine ⟨e, he, rfl, hiff, fun hsmall happart => ?_⟩
  rw [Derivation.methodsApart_iff _ hnamed, ← Entity.membersApart_of_small hnamed hsmall] at happart
  exact (hiff.2 happart).1

end Run

/-! ## An order, an account and a page -/

namespace Sample

/-- Two properties have the same words, and one is called like a fixed member. -/
def account : Declaration :=
  type .class "Account" ["Entity"] []
    [field "id" ["Key"], field "type" [], field "homeURL" [], field "homeUrl" []]

/-- Two properties differ in the case of the first letter, and one is called like a getter. -/
def page : Declaration :=
  type .class "Page" ["Entity"] []
    [field "id" ["Key"], field "url" [], field "Url" [], field "getUrl" []]

end Sample

namespace Run

theorem staticNames_of_order :
    ∃ m, .metadata m ∈ (Sample.run Sample.declarations).artifacts ∧
      m.staticNames = ["TOTAL", "ID", "CHANGED", "TYPE", "INSTANCE"] ∧
      ∃ e ∈ (Sample.run Sample.declarations).graph.nodes, m.entity = e.qualifiedName ∧
        e.ConstantsApart := by
  obtain ⟨m, hm, horder⟩ := Sample.exists_metadata Sample.declarations
    (fun m => m.staticNames == ["TOTAL", "ID", "CHANGED", "TYPE", "INSTANCE"]) rfl
    (by with_unfolding_all rfl)
  have hnames := eq_of_beq horder
  obtain ⟨e, he, heq, -, hiff, -⟩ := staticNames_process hm
  refine ⟨m, hm, hnames, e, he, congrArg MetadataArtifact.entity heq, hiff.1 ?_⟩
  rw [hnames]
  decide

/-- Of the static members of an account, two pairs have one name. -/
theorem exists_repeated_constant :
    ∃ m, .metadata m ∈ (Sample.run [Sample.account]).artifacts ∧
      m.staticNames = ["ID", "TYPE", "HOME_URL", "HOME_URL", "TYPE", "INSTANCE"] ∧
      ¬ m.staticNames.Nodup := by
  obtain ⟨m, hm, haccount⟩ := Sample.exists_metadata [Sample.account]
    (fun m => m.staticNames == ["ID", "TYPE", "HOME_URL", "HOME_URL", "TYPE", "INSTANCE"]) rfl
    (by with_unfolding_all rfl)
  have hnames := eq_of_beq haccount
  refine ⟨m, hm, hnames, ?_⟩
  rw [hnames]
  decide

theorem memberNames_of_order :
    ∃ i, .implementation i ∈ (Sample.run Sample.declarations).artifacts ∧
      i.memberNames = ["$total_state", "$id_state", "$changed_state", "getTotal", "setTotal", "getId",
        "setId", "getChanged", "setChanged", "equals", "hashCode", "toString"] ∧
      ∃ e ∈ (Sample.run Sample.declarations).graph.nodes, i.entity = e.qualifiedName ∧
        e.MembersApart := by
  obtain ⟨i, hi, horder⟩ := Sample.exists_implementation Sample.declarations
    (fun i => i.memberNames == ["$total_state", "$id_state", "$changed_state", "getTotal",
      "setTotal", "getId", "setId", "getChanged", "setChanged", "equals", "hashCode", "toString"] &&
      i.MethodsApart) rfl (by with_unfolding_all rfl)
  simp only [Bool.and_eq_true, beq_iff_eq, decide_eq_true_eq] at horder
  obtain ⟨hnames, hmethods⟩ := horder
  obtain ⟨e, he, heq, hiff, -⟩ := memberNames_process hi
  refine ⟨i, hi, hnames, e, he, congrArg ImplementationArtifact.entity heq, hiff.1 ⟨?_, hmethods⟩⟩
  rw [hnames]
  decide

/-- A page has a getter and a setter twice, and the getter has the name of a property. -/
theorem exists_repeated_member :
    ∃ i, .implementation i ∈ (Sample.run [Sample.page]).artifacts ∧
      i.memberNames = ["$id_state", "$url_state", "$Url_state", "$getUrl_state", "getId", "setId",
        "getUrl", "setUrl", "getUrl", "setUrl", "getGetUrl", "setGetUrl", "equals", "hashCode",
        "toString"] ∧
      ¬ i.memberNames.Nodup ∧ ¬ i.MethodsApart := by
  obtain ⟨i, hi, hpage⟩ := Sample.exists_implementation [Sample.page]
    (fun i => i.memberNames == ["$id_state", "$url_state", "$Url_state", "$getUrl_state",
      "getId", "setId", "getUrl", "setUrl", "getUrl", "setUrl", "getGetUrl", "setGetUrl", "equals",
      "hashCode", "toString"] && !decide i.MethodsApart) rfl (by with_unfolding_all rfl)
  simp only [Bool.and_eq_true, beq_iff_eq, Bool.not_eq_true', decide_eq_false_iff_not] at hpage
  obtain ⟨hnames, hmethods⟩ := hpage
  refine ⟨i, hi, hnames, ?_, hmethods⟩
  rw [hnames]
  decide

end Run

end Metamodel
