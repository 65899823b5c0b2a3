import Metamodel.Declaration.Json
import Metamodel.Declaration.Schema
import Metamodel.Proofs.Artifact.Identifiers
import Metamodel.Proofs.Run.Access

/-!
# Identifiers in the classes of a run

Nothing checks the names of members, and a run prints what it makes of them where identifiers have to
stand. Each generated class is well named exactly when the members are that it was made of: those of the
stored properties and the methods of listeners for metadata, and those of all properties for an
implementation (`wellNamed_process`). They are members of declarations, so all is well when these are
named by identifiers; a callback of another name is called by it all the same (`exists_misnamed`).
-/

namespace Metamodel

open Naming (isIdentifier IsAscii)

/-- The members that instances can use have names of the kind. -/
def DeclarationSource.NamesMembers (s : DeclarationSource) (P : String → Prop) : Prop :=
  ∀ d ∈ s.declarations, ∀ name, s.HasMember d name → P name

/-! ## Where listeners come from -/

theorem DeclarationSource.hasMember_of_mem_listeners {s : DeclarationSource} {d : Declaration}
    {members : List Member} {catalog : Catalog} {l : Listener} (hmembers : s.members d = .ok members)
    (hl : l ∈ members.flatMap (·.listeners catalog)) : s.HasMember d l.methodName := by
  obtain ⟨m, hm, hl⟩ := List.mem_flatMap.1 hl
  unfold Member.listeners at hl
  split at hl
  · cases hl
  · rename_i h
    simp only [not_or, Bool.not_eq_true] at h
    obtain ⟨-, -, hprivate, hstatic⟩ := h
    obtain ⟨_, -, rfl⟩ := List.mem_map.1 hl
    exact ⟨members, m, hmembers, hm, rfl, hprivate, hstatic⟩

/-- A listener of a built type calls an own member, or an ancestor has it. -/
theorem IsBuilt.mem_listeners {c : Context} {kind : EntityKind} {d : Declaration}
    {members : List Member} {b : Built} (h : IsBuilt c kind d members b) {l : Listener}
    (hl : l ∈ b.entity.listeners) :
    l ∈ members.flatMap (·.listeners c.source.catalog) ∨
      ∃ name ∈ c.ancestorNames kind d b.entity.qualifiedName, ∃ e, c.ancestor? name = some e ∧
        l ∈ e.heirListeners := by
  obtain ⟨inherited, heq, hinherited⟩ := Members.exists_listeners_foldl_merge
    (c.ownMembers d b.entity.owner members)
    ((c.ancestorNames kind d b.entity.qualifiedName).filterMap c.ancestor?)
  rw [h.listeners_eq, Members.mergeAll, heq] at hl
  refine (List.mem_append.1 hl).imp_right fun hl => ?_
  obtain ⟨e, he, hmem⟩ := hinherited l hl
  obtain ⟨name, hname, hlookup⟩ := List.mem_filterMap.1 he
  exact ⟨name, hname, e, hlookup, hmem⟩

/-- What is no entity listens with own members only. -/
theorem IsBuilt.mem_own_listeners {c : Context} {kind : EntityKind} {d : Declaration}
    {members : List Member} {b : Built} (h : IsBuilt c kind d members b) (hkind : kind ≠ .entity)
    {l : Listener} (hl : l ∈ b.entity.listeners) :
    l ∈ members.flatMap (·.listeners c.source.catalog) := by
  rcases h.mem_listeners hl with hl | ⟨name, hname, -⟩
  · exact hl
  · rw [c.ancestorNames_of_ne hkind] at hname
    cases hname

namespace Run

variable {s : DeclarationSource} {config : Config} {outDir : String}

/-! ## Members of the declarations -/

section Built

variable {kind : EntityKind} {e : Entity}

/-- A property of a built type is named for a member of a declaration. -/
theorem exists_hasMember_of_property (he : e ∈ builtOf s config kind) {p : Property}
    (hp : p ∈ e.properties) :
    p.IsNamed ∧ ∃ d ∈ s.declarations, s.HasMember d p.memberName := by
  by_cases hkind : kind = .entity
  · rw [hkind] at he
    obtain ⟨d, hd, -, hmembers⟩ := exists_declaration_of_mem_builtOf he
    obtain ⟨hnamed, hdeclared⟩ := hmembers p hp
    refine ⟨hnamed, ?_⟩
    rcases hdeclared with hmember | ⟨d', hd', -, -, -, hmember⟩
    · exact ⟨d, hd, hmember⟩
    · exact ⟨d', hd', hmember⟩
  · obtain ⟨d, members, b, hd, rfl, hb⟩ := isBuilt_of_mem_builtOf he
    obtain ⟨m, hm, hextract⟩ := hb.exists_member hkind hp
    have hof := isOf_of_extractProperty? hextract
    exact ⟨hof.isNamed, d, mem_declarations_of_mem_candidates hd,
      DeclarationSource.hasMember_of_isOf (members_of_isBuilt hb) hm hof⟩

/-- A listener of a built type calls a member of a declaration. -/
theorem exists_hasMember_of_listener (he : e ∈ builtOf s config kind) {l : Listener}
    (hl : l ∈ e.listeners) : ∃ d ∈ s.declarations, s.HasMember d l.methodName := by
  have hown {kind' : EntityKind} {d : Declaration} {members : List Member} {b : Built}
      (hd : d ∈ candidates s kind'.marker)
      (hb : IsBuilt (build s config).context kind' d members b) {l : Listener}
      (hl : l ∈ members.flatMap (·.listeners (build s config).context.source.catalog)) :
      ∃ d ∈ s.declarations, s.HasMember d l.methodName := by
    exact ⟨d, mem_declarations_of_mem_candidates hd,
      DeclarationSource.hasMember_of_mem_listeners (members_of_isBuilt hb) hl⟩
  obtain ⟨d, members, b, hd, rfl, hb⟩ := isBuilt_of_mem_builtOf he
  rcases hb.mem_listeners hl with hl | ⟨name, -, e', hlookup, hheir⟩
  · exact hown hd hb hl
  · -- the ancestor listens with its own members only
    obtain ⟨-, kind', hkind', he'⟩ := mem_builtOf_of_ancestor? hlookup
    obtain ⟨d', members', b', hd', rfl, hb'⟩ := isBuilt_of_mem_builtOf he'
    obtain ⟨l', hl', rfl⟩ := List.mem_map.1 hheir
    have hcalled : ∃ d ∈ s.declarations, s.HasMember d l'.methodName :=
      hown hd' hb' (hb'.mem_own_listeners hkind' hl')
    exact hcalled

end Built

/-! ## Generated classes -/

/-- Where members have names in the basic alphabet, a metadata class is well named exactly when the
members of the stored properties and the methods of the listeners are named by identifiers, and an
implementation exactly when the members of all properties are. A type of values is looked up exactly
when the name of the member is without quotes, backslashes and line breaks. So everything is well
named if all members of the declarations are named by identifiers. -/
theorem wellNamed_process (hascii : s.NamesMembers IsAscii) :
    (∀ m, .metadata m ∈ (process s config outDir).artifacts →
      ∃ e ∈ (process s config outDir).graph.nodes,
        m = Derivation.metadata (process s config outDir).graph (deriveOptions config outDir) e ∧
        (m.WellNamed e ↔ (∀ p ∈ e.persistentProperties, isIdentifier p.memberName = true) ∧
          ∀ l ∈ e.listeners, isIdentifier l.methodName = true)) ∧
    (∀ i, .implementation i ∈ (process s config outDir).artifacts →
      ∃ e ∈ (process s config outDir).graph.nodes,
        i = Derivation.implementation (deriveOptions config outDir) e ∧
        (i.WellNamed e ↔ ∀ p ∈ e.properties, isIdentifier p.memberName = true)) ∧
    (∀ e ∈ (process s config outDir).graph.nodes, ∀ p ∈ e.properties,
      e.LooksUp p ↔ Text.IsVerbatim p.memberName.toList) ∧
    (s.NamesMembers (isIdentifier · = true) →
      ∀ e ∈ (process s config outDir).graph.nodes,
        (Derivation.metadata (process s config outDir).graph
          (deriveOptions config outDir) e).WellNamed e ∧
        (Derivation.implementation (deriveOptions config outDir) e).WellNamed e) := by
  have hmember {e : Entity} (he : e ∈ (process s config outDir).graph.nodes) :
      ∀ p ∈ e.properties, p.IsNamed ∧ ∃ d ∈ s.declarations, s.HasMember d p.memberName :=
    fun p hp => exists_hasMember_of_property (mem_builtOf_kind he) hp
  have hmetadata {e : Entity} (he : e ∈ (process s config outDir).graph.nodes) :=
    Derivation.wellNamed_metadata_iff (process s config outDir).graph (deriveOptions config outDir)
      (fun p hp => (hmember he p hp).1) fun p hp => by
        obtain ⟨-, d, hd, hname⟩ := hmember he p hp
        exact hascii d hd _ hname
  have himplementation {e : Entity} (he : e ∈ (process s config outDir).graph.nodes) :=
    Derivation.wellNamed_implementation_iff (deriveOptions config outDir)
      fun p hp => (hmember he p hp).1
  refine ⟨fun m hm => ?_, fun i hi => ?_, fun e he p hp => ?_, fun hidentifiers e he => ?_⟩
  · obtain ⟨-, e, he, rfl⟩ := metadata_mem_process_iff.1 hm
    exact ⟨e, he, rfl, hmetadata he⟩
  · obtain ⟨-, e, he, -, rfl⟩ := implementation_mem_process_iff.1 hi
    exact ⟨e, he, rfl, himplementation he⟩
  · exact Derivation.looksUp_iff (hmember he p hp).1
  · have hproperties : ∀ p ∈ e.properties, isIdentifier p.memberName = true := by
      intro p hp
      obtain ⟨-, d, hd, hname⟩ := hmember he p hp
      exact hidentifiers d hd _ hname
    refine ⟨(hmetadata he).2 ⟨fun p hp => ?_, fun l hl => ?_⟩, (himplementation he).2 hproperties⟩
    · exact hproperties p (List.mem_filter.1 hp).1
    · obtain ⟨d, hd, hname⟩ := exists_hasMember_of_listener (mem_builtOf_kind he) hl
      exact hidentifiers d hd _ hname

end Run

/-! ## An order and a door -/

theorem DeclarationSource.namesMembers_ofDeclarations {ds : List Declaration} {catalog : Catalog}
    {P : String → Prop} (h : ∀ d ∈ ds, ∀ m ∈ d.members.getD [], P m.name) :
    (DeclarationSource.ofDeclarations ds catalog).NamesMembers P := by
  rintro d hd _ ⟨members, m, hmembers, hm, rfl, -, -⟩
  obtain rfl : d.members.getD [] = members := Except.ok.inj hmembers
  exact h d hd m hm

namespace Run

theorem wellNamed_order :
    (DeclarationSource.ofDeclarations Sample.declarations (.create true)).NamesMembers IsAscii ∧
      ∃ m, .metadata m ∈ (Sample.run Sample.declarations).artifacts ∧
        m.memberWords = ["TOTAL", "$total_state", "ID", "$id_state", "CHANGED", "$changed_state",
          "saved", "saved"] ∧
        ∃ e ∈ (Sample.run Sample.declarations).graph.nodes, m.WellNamed e := by
  have hnames : ∀ d ∈ Sample.declarations, ∀ m ∈ d.members.getD [],
      isIdentifier m.name = true := by decide
  have hidentifiers : (DeclarationSource.ofDeclarations Sample.declarations
      (.create true)).NamesMembers (isIdentifier · = true) :=
    DeclarationSource.namesMembers_ofDeclarations hnames
  have hascii : (DeclarationSource.ofDeclarations Sample.declarations
      (.create true)).NamesMembers IsAscii :=
    fun d hd name hname => Naming.isAscii_of_isIdentifier (hidentifiers d hd name hname)
  obtain ⟨m, hm, hwords⟩ := Sample.exists_metadata Sample.declarations
    (fun m => m.memberWords == ["TOTAL", "$total_state", "ID", "$id_state", "CHANGED",
      "$changed_state", "saved", "saved"]) rfl (by with_unfolding_all rfl)
  obtain ⟨hmetadata, -, -, hall⟩ := wellNamed_process hascii
  obtain ⟨e, he, rfl, -⟩ := hmetadata m hm
  exact ⟨hascii, _, hm, eq_of_beq hwords, e, he, (hall hidentifiers e he).1⟩

end Run

namespace Sample

/-- A superclass with one member. -/
def superclassJson (name : String) (member : List (String × Json)) : Json :=
  .object
    [("packageName", .string "shop"), ("simpleName", .string name),
      ("qualifiedName", .string ("shop." ++ name)), ("declarationKind", .string "CLASS"),
      ("annotations", .array [.object [("name", .string "Superclass")]]),
      ("members", .array [.object member])]

/-- A class with a callback whose name can only be written in quotes, and one with a field whose name
holds a quote. -/
def quotedSet : Json :=
  .object
    [("schemaVersion", .string "1.0"),
      ("declarations", .array
        [superclassJson "Door"
          [("name", .string "on-load"), ("kind", .string "METHOD"),
            ("type", .object [("kind", .string "VOID"), ("name", .string "void")]),
            ("annotations", .array [.object [("name", .string "PostLoad")]])],
          superclassJson "Quip"
            [("name", .string "it's"), ("kind", .string "FIELD"),
              ("type", .object [("kind", .string "PRIMITIVE"), ("name", .string "string")])]])]

theorem parse_quotedSet : parseDeclarationSet quotedSet none = .ok quotedSet := by
  have hvalid : Declaration.setProblems quotedSet = [] := by
    simp [Declaration.setProblems, quotedSet, superclassJson, Schema.problems, Schema.recordProblems,
      Schema.memberProblems, Declaration.records, List.lookup_cons, declarationSetVersion,
      DeclarationKind.all, DeclarationKind.text, MemberKind.all, MemberKind.text, TypeKind.all,
      TypeKind.text]
  unfold parseDeclarationSet
  rw [hvalid]

end Sample

/-- A valid declaration set in the basic alphabet, whose types are named by identifiers. The metadata of
one calls a method by a name that is no identifier, and in that of the other a type stands under no
literal of the field's name. -/
theorem exists_misnamed :
    ∃ v, parseDeclarationSet v none = .ok v ∧
      (∀ d ∈ Declaration.listOfSet v, isIdentifier d.simpleName = true ∧
        ∀ m ∈ d.members.getD [], IsAscii m.name) ∧
      (∃ m, .metadata m ∈ (Sample.run (Declaration.listOfSet v)).artifacts ∧
        m.memberWords = ["on-load"] ∧ isIdentifier "on-load" = false) ∧
      ∃ m, .metadata m ∈ (Sample.run (Declaration.listOfSet v)).artifacts ∧
        m.attributes.map (·.valueType) = ["Quip['it's']"] ∧
        ∃ e ∈ (Sample.run (Declaration.listOfSet v)).graph.nodes, m.entity = e.qualifiedName ∧
          ∃ p ∈ e.properties, p.memberName = "it's" ∧ ¬ e.LooksUp p := by
  refine ⟨Sample.quotedSet, Sample.parse_quotedSet, by decide +kernel, ?_, ?_⟩
  · obtain ⟨m, hm, hwords⟩ := Sample.exists_metadata (Declaration.listOfSet Sample.quotedSet)
      (fun m => m.memberWords == ["on-load"]) rfl (by with_unfolding_all rfl)
    exact ⟨m, hm, eq_of_beq hwords, by decide⟩
  · have hquip : ((Sample.run (Declaration.listOfSet Sample.quotedSet)).graph.nodes.any fun e =>
        e.properties.any fun p => p.memberName == "it's" &&
          (Derivation.metadata (Sample.run (Declaration.listOfSet Sample.quotedSet)).graph
            (Run.deriveOptions .default "generated") e).attributes.map (·.valueType) ==
              ["Quip['it's']"]) = true := by decide +kernel
    obtain ⟨e, he, hany⟩ := List.any_eq_true.1 hquip
    obtain ⟨p, hp, hboth⟩ := List.any_eq_true.1 hany
    simp only [Bool.and_eq_true, beq_iff_eq] at hboth
    obtain ⟨hname, htypes⟩ := hboth
    refine ⟨_, Run.metadata_mem_process_iff.2 ⟨rfl, e, he, rfl⟩, htypes, e, he, rfl, p, hp, hname, ?_⟩
    have hnamed : p.IsNamed :=
      (Run.exists_hasMember_of_property (Run.mem_builtOf_kind he) hp).1
    rw [Derivation.looksUp_iff hnamed, hname]
    decide

end Metamodel
