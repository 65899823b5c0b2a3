import Mathlib.Data.List.Perm.Basic
import Mathlib.Data.List.ProdSigma
import Metamodel.Proofs.Artifact.Access
import Metamodel.Proofs.Artifact.MemberRole
import Metamodel.Proofs.Entity.Constant

/-!
# Names of generated members

The static members of a metadata class have distinct names exactly when the constants of its
properties are apart (`nodup_staticNames_iff`), and the members of an implementation have, without its
methods taking the names of properties, exactly when the members of the type are (`membersApart_iff`).
-/

namespace Metamodel

open ImplementationArtifact (standardNames)

theorem nodup_filterMap_iff {α β : Type} {f : α → Option β} {xs : List α} (hxs : xs.Nodup) :
    (xs.filterMap f).Nodup ↔
      ∀ x ∈ xs, ∀ y ∈ xs, ∀ b, f x = some b → f y = some b → x = y := by
  unfold List.Nodup
  rw [List.pairwise_filterMap]
  constructor
  · intro h x hx y hy b hfx hfy
    by_contra hne
    have hsymm : Std.Symm fun x y => ∀ b, f x = some b → ∀ b', f y = some b' → b ≠ b' :=
      ⟨fun _ _ h b hb b' hb' => (h b' hb' b hb).symm⟩
    exact h.forall hx hy hne b hfx b hfy rfl
  · intro h
    refine hxs.pairwise_of_forall_ne fun x hx y hy hne b hfx b' hfy => ?_
    rintro rfl
    exact hne (h x hx y hy b hfx hfy)

/-- Static members have distinct names exactly when the constants are apart. -/
theorem nodup_staticNames_iff {g : Graph} {o : DeriveOptions} {e : Entity}
    (hnames : (e.properties.map Property.name).Nodup) :
    (Derivation.metadata g o e).staticNames.Nodup ↔ e.ConstantsApart := by
  have hstored : (e.persistentProperties.map Property.name).Nodup :=
    hnames.sublist (List.filter_sublist.map _)
  have hfields : (Derivation.metadata g o e).attributes.map (·.fieldName) =
      e.persistentProperties.map fun p => Naming.upperUnderscore p.name := by
    show (e.persistentProperties.map (Derivation.attributeModel g e)).map _ = _
    rw [List.map_map]
    rfl
  have hfixed : ["TYPE", "INSTANCE"] = ["type", "instance"].map Naming.upperUnderscore := by decide
  have hdistinct : (["type", "instance"].map Naming.upperUnderscore).Nodup := by decide
  rw [MetadataArtifact.staticNames_eq, hfields, hfixed, List.nodup_append,
    List.nodup_map_iff_inj_on hstored.of_map]
  constructor
  · rintro ⟨hinjective, -, hapart⟩
    refine ⟨?_, ?_⟩
    · intro p hp name hname hwords
      rw [← Naming.upperUnderscore_eq_iff] at hwords
      exact hapart _ (List.mem_map_of_mem hp) _ (List.mem_map_of_mem hname) hwords
    · intro p hp q hq hwords
      rw [← Naming.upperUnderscore_eq_iff] at hwords
      rw [hinjective p hp q hq hwords]
  · intro h
    refine ⟨?_, hdistinct, ?_⟩
    · intro p hp q hq hconstant
      rw [Naming.upperUnderscore_eq_iff] at hconstant
      exact List.inj_on_of_nodup_map hstored hp hq (h.properties p hp q hq hconstant)
    · intro constant hmem fixed hmem' heq
      obtain ⟨p, hp, rfl⟩ := List.mem_map.1 hmem
      obtain ⟨name, hname, rfl⟩ := List.mem_map.1 hmem'
      rw [Naming.upperUnderscore_eq_iff] at heq
      exact h.fixed p hp name hname heq

namespace Derivation

open Rendering

variable {e : Entity} {p : Property}

/-! ## The names in an implementation -/

theorem backingField_ne_empty (p : Property) : Entity.backingField p ≠ "" := by
  intro h
  have hhead : (Entity.backingField p).toList.head? = some '$' := by
    rw [Entity.backingField, String.append_assoc]
    exact Entity.head?_dollar _
  rw [h] at hhead
  cases hhead

theorem getterName_eq_member? (hp : p.IsNamed) :
    given? (accessor e p).getterName = e.member? p .getter := by
  simp only [Entity.member?]
  by_cases hkind : p.memberKind = .method
  · rw [if_pos hkind]
    by_cases hinterface : e.isInterface = true
    · rw [getterName_accessor_of_method hkind hinterface, if_pos hinterface,
        given?_some hp.memberName_ne]
    · have hnone : (accessor e p).getterName = none := by
        simp [accessor, hkind, hinterface]
      rw [hnone, if_neg hinterface]
      rfl
  · rw [if_neg hkind]
    by_cases hstyle : e.nameStyle.isPlain = true
    · have hnone : (accessor e p).getterName = none := by
        simp [accessor, hkind, distinctFrom, Property.getterName_of_isPlain hstyle]
      rw [hnone, if_pos hstyle]
      rfl
    · rw [Bool.not_eq_true] at hstyle
      rw [getterName_accessor_of_field hkind hp hstyle, hstyle, given?_some hp.getterName_ne_empty]
      rfl

theorem setterName_eq_member? (hp : p.IsNamed) :
    given? (accessor e p).setterName = e.member? p .setter := by
  simp only [Entity.member?]
  by_cases hnone : (p.isReadOnly || e.nameStyle.isPlain ||
      (p.memberKind == .method && !e.isInterface)) = true
  · rw [if_pos hnone]
    simp only [Bool.or_eq_true] at hnone
    have hsetter : (accessor e p).setterName = none := by
      rcases hnone with (hread | hstyle) | hmethod
      · simp [accessor, accessorSetter, hread]
      · exact setterName_accessor_of_isPlain hstyle
      · simp only [accessor, hmethod, if_true]
    rw [hsetter]
    rfl
  · rw [if_neg hnone]
    simp only [Bool.or_eq_true, not_or, Bool.not_eq_true, Bool.and_eq_false_iff,
      beq_eq_false_iff_ne, Bool.not_eq_false'] at hnone
    obtain ⟨⟨hread, hstyle⟩, hplace⟩ := hnone
    rw [setterName_accessor hp hstyle hread hplace.symm, given?_some hp.setterName_ne_empty]

/-- The names of the members that are generated for a property. -/
theorem names_members (hp : p.IsNamed) :
    (accessor e p).stateMember?.map (·.name) = e.member? p .state ∧
      (accessor e p).backingMember?.map (·.name) = e.member? p .backing ∧
      (accessor e p).propertyMember?.map (·.name) = e.member? p .property ∧
      (accessor e p).getterMember?.map (·.name) = e.member? p .getter ∧
      (accessor e p).setterMember?.map (·.name) = e.member? p .setter := by
  refine ⟨?_, ?_, ?_, ?_, ?_⟩
  · rw [AccessorModel.stateMember?, Option.map_map]
    exact Option.map_id'.trans (given?_ite (stateField_ne_empty p))
  · rw [AccessorModel.backingMember?, Option.map_map]
    exact Option.map_id'.trans (given?_ite (backingField_ne_empty p))
  · unfold AccessorModel.propertyMember? Entity.member?
    cases h : (accessor e p).propertyAccessor with
    | true =>
      have hrole : (e.isInterface && p.memberKind != .method) = true := h
      rw [if_pos rfl, if_pos hrole]
      rfl
    | false =>
      have hrole : (e.isInterface && p.memberKind != .method) = false := h
      rw [hrole]
      rfl
  · rw [AccessorModel.getterMember?, Option.map_map]
    exact Option.map_id'.trans (getterName_eq_member? hp)
  · rw [AccessorModel.setterMember?, Option.map_map]
    exact Option.map_id'.trans (setterName_eq_member? hp)

theorem map_name_flatMap (f : Property → Option ClassMember) {ps : List Property} {r : MemberRole}
    (h : ∀ p ∈ ps, (f p).map (·.name) = e.member? p r) :
    (ps.flatMap fun p => (f p).toList).map (·.name) = ps.filterMap (e.member? · r) := by
  rw [← List.filterMap_eq_flatMap_toList, List.map_filterMap]
  exact List.filterMap_congr h

theorem filterMap_roles (e : Entity) (ps : List Property) :
    (MemberRole.all ×ˢ ps).filterMap (fun x => e.member? x.2 x.1) =
      ps.filterMap (e.member? · .state) ++ ps.filterMap (e.member? · .backing) ++
        (ps.filterMap (e.member? · .property) ++ ps.filterMap (e.member? · .getter) ++
          ps.filterMap (e.member? · .setter)) := by
  have hroles : (MemberRole.all ×ˢ ps).filterMap (fun x => e.member? x.2 x.1) =
      MemberRole.all.flatMap fun r => ps.filterMap (e.member? · r) := by
    show (MemberRole.all.flatMap fun r => ps.map (Prod.mk r)).filterMap _ = _
    rw [List.filterMap_flatMap]
    exact List.flatMap_congr fun r _ => List.filterMap_map
  rw [hroles]
  simp [MemberRole.all]

/-- The accessors and methods, property by property, are those of each role, one role behind the
other. -/
theorem members_perm (as : List AccessorModel) :
    (as.flatMap fun a => a.propertyMember?.toList ++ a.getterMember?.toList ++
        a.setterMember?.toList).Perm
      ((as.flatMap fun a => a.propertyMember?.toList) ++
        (as.flatMap fun a => a.getterMember?.toList) ++
        as.flatMap fun a => a.setterMember?.toList) := by
  refine (List.flatMap_append_perm _ _ _).symm.trans (List.Perm.append_right _ ?_)
  exact (List.flatMap_append_perm _ _ _).symm

/-- The names of an implementation's members, role by role. -/
theorem memberNames_perm (o : DeriveOptions) (hnamed : ∀ p ∈ e.properties, p.IsNamed) :
    (implementation o e).memberNames.Perm
      ((MemberRole.all ×ˢ e.properties).filterMap (fun x => e.member? x.2 x.1) ++ standardNames) := by
  have hnames {r : MemberRole} (f : AccessorModel → Option ClassMember)
      (h : ∀ p ∈ e.properties, (f (accessor e p)).map (·.name) = e.member? p r) :
      ((e.properties.map (accessor e)).flatMap fun a => (f a).toList).map (·.name) =
        e.properties.filterMap (e.member? · r) := by
    rw [List.flatMap_map]
    exact map_name_flatMap (fun p => f (accessor e p)) h
  have hstate := hnames (·.stateMember?) fun p hp => (names_members (hnamed p hp)).1
  have hbacking := hnames (·.backingMember?) fun p hp => (names_members (hnamed p hp)).2.1
  have hproperty := hnames (·.propertyMember?) fun p hp => (names_members (hnamed p hp)).2.2.1
  have hgetter := hnames (·.getterMember?) fun p hp => (names_members (hnamed p hp)).2.2.2.1
  have hsetter := hnames (·.setterMember?) fun p hp => (names_members (hnamed p hp)).2.2.2.2
  have hmethods := (members_perm (e.properties.map (accessor e))).map (·.name)
  simp only [List.map_append, hproperty, hgetter, hsetter] at hmethods
  have hfields : (implementation o e).fields.map (·.name) =
      e.properties.filterMap (e.member? · .state) ++
        e.properties.filterMap (e.member? · .backing) := by
    rw [← List.filterMap_eq_flatMap_toList] at hstate hbacking
    rw [← hstate, ← hbacking, ← List.map_append]
    rfl
  unfold ImplementationArtifact.memberNames ImplementationArtifact.methods
  rw [List.map_append, List.map_append, hfields, filterMap_roles, List.append_assoc (_ ++ _)]
  exact (hmethods.append_right standardNames).append_left _

/-- The members of an implementation have distinct names exactly when those of no two properties
and roles are the same, and none is a standard one. -/
theorem nodup_memberNames_iff (o : DeriveOptions) (hnamed : ∀ p ∈ e.properties, p.IsNamed)
    (hnames : (e.properties.map Property.name).Nodup) :
    (implementation o e).memberNames.Nodup ↔ e.MembersDistinct ∧
      ∀ p ∈ e.properties, ∀ r name, e.member? p r = some name → name ∉ standardNames := by
  have hpairs : (MemberRole.all ×ˢ e.properties).Nodup :=
    List.Nodup.product (by decide) hnames.of_map
  have hmem {r : MemberRole} {p : Property} (hp : p ∈ e.properties) :
      (r, p) ∈ MemberRole.all ×ˢ e.properties := List.mem_product.2 ⟨r.mem_all, hp⟩
  have hstandard : standardNames.Nodup := by decide
  rw [(memberNames_perm o hnamed).nodup_iff, List.nodup_append, nodup_filterMap_iff hpairs]
  constructor
  · rintro ⟨hdistinct, -, hapart⟩
    constructor
    · intro p hp q hq r r' name hname hname'
      have hsame := hdistinct (r, p) (hmem hp) (r', q) (hmem hq) name hname hname'
      obtain ⟨rfl, rfl⟩ := Prod.ext_iff.1 hsame
      exact ⟨rfl, rfl⟩
    · intro p hp r name hname hmember
      exact hapart name (List.mem_filterMap.2 ⟨(r, p), hmem hp, hname⟩) name hmember rfl
  · rintro ⟨hdistinct, hapart⟩
    refine ⟨?_, hstandard, ?_⟩
    · rintro ⟨r, p⟩ hx ⟨r', q⟩ hy name hname hname'
      have hp := (List.mem_product.1 hx).2
      have hq := (List.mem_product.1 hy).2
      obtain ⟨hrole, hsame⟩ := hdistinct p hp q hq r r' name hname hname'
      rw [hrole, List.inj_on_of_nodup_map hnames hp hq hsame]
    · rintro name hname _ hmember rfl
      obtain ⟨⟨r, p⟩, hx, hname⟩ := List.mem_filterMap.1 hname
      exact hapart p (List.mem_product.1 hx).2 r name hname hmember

theorem mem_methodNames_iff {q : Property} (hq : q.IsNamed) {name : String} :
    name ∈ (accessor e q).methodNames ↔
      e.member? q .getter = some name ∨ e.member? q .setter = some name := by
  unfold AccessorModel.methodNames
  rw [getterName_eq_member? hq, setterName_eq_member? hq, List.mem_append, Option.mem_toList,
    Option.mem_toList]

theorem methodsApart_iff (o : DeriveOptions) (hnamed : ∀ p ∈ e.properties, p.IsNamed) :
    (implementation o e).MethodsApart ↔ (∀ p ∈ e.properties, p.name ∉ standardNames) ∧
      ∀ p ∈ e.properties, ∀ q ∈ e.properties, p.name ≠ q.name →
        e.member? p .getter ≠ some q.name ∧ e.member? p .setter ≠ some q.name := by
  have haccessor {p : Property} (hp : p ∈ e.properties) :
      accessor e p ∈ (implementation o e).accessors := List.mem_map_of_mem hp
  constructor
  · intro h
    refine ⟨fun p hp => (h _ (haccessor hp)).1, fun p hp q hq hne => ?_⟩
    have hmethod : q.name ∉ (accessor e p).methodNames := fun hmem =>
      hne ((h _ (haccessor hq)).2 _ (haccessor hp) hmem).symm
    rwa [mem_methodNames_iff (hnamed p hp), not_or] at hmethod
  · rintro ⟨hstandard, hmethods⟩ _ ha
    obtain ⟨q, hq, rfl⟩ := List.mem_map.1 ha
    refine ⟨hstandard q hq, ?_⟩
    rintro _ hb hmem
    obtain ⟨p, hp, rfl⟩ := List.mem_map.1 hb
    by_contra hne
    obtain ⟨hgetter, hsetter⟩ := hmethods p hp q hq fun hname => hne hname.symm
    rcases (mem_methodNames_iff (hnamed p hp)).1 hmem with h | h
    · exact hgetter h
    · exact hsetter h

/-- The members of an implementation have distinct names, and its methods none of a property,
exactly when the members of the type do not clash. -/
theorem membersApart_iff (o : DeriveOptions) (hnamed : ∀ p ∈ e.properties, p.IsNamed)
    (hnames : (e.properties.map Property.name).Nodup) :
    (implementation o e).memberNames.Nodup ∧ (implementation o e).MethodsApart ↔ e.MembersApart := by
  rw [nodup_memberNames_iff o hnamed hnames, methodsApart_iff o hnamed]
  constructor
  · rintro ⟨⟨hdistinct, -⟩, hstandard, hmethods⟩
    refine ⟨hstandard, ?_, ?_, ?_, hmethods⟩
    · rintro p hp q hq name (hfield | hfield) hproperty
      · exact absurd (hdistinct p hp q hq _ _ name hfield hproperty).1 (by decide)
      · exact absurd (hdistinct p hp q hq _ _ name hfield hproperty).1 (by decide)
    · intro p hp q hq name hname hname'
      exact (hdistinct p hp q hq _ _ name hname hname').2
    · intro p hp q hq name hname hname'
      exact (hdistinct p hp q hq _ _ name hname hname').2
  · intro h
    refine ⟨⟨h.membersDistinct hnames hnamed, ?_⟩, h.standard, h.methods⟩
    intro p hp r name hname
    by_cases hr : r = .property
    · rw [hr] at hname
      rw [(Entity.property_iff.1 hname).2.2]
      exact h.standard p hp
    · exact Entity.notMem_standardNames hnamed hp hr hname

end Derivation

end Metamodel
