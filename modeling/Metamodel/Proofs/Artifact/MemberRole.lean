import Mathlib.Data.List.Pairwise
import Metamodel.Artifact.Derivation
import Metamodel.Proofs.Artifact.Members
import Metamodel.Proofs.Entity.Naming

/-!
# Members of a property

A property gives an implementation up to five members, one for each `MemberRole`. Their names begin
differently, so most of them cannot clash; `Entity.MembersApart` lists what can, and then members are
told apart by role and property (`MembersApart.membersDistinct`). Where the names of properties begin
with small letters, nothing clashes but the name of a property with a method (`membersApart_of_small`).
-/

namespace Metamodel

open ImplementationArtifact (standardNames)

/-- What a generated member of a property is for. -/
inductive MemberRole where
  | state
  | backing
  | property
  | getter
  | setter
  deriving DecidableEq

namespace MemberRole

def all : List MemberRole := [state, backing, property, getter, setter]

theorem mem_all (r : MemberRole) : r ∈ all := by
  cases r <;> decide

/-- The characters that names of the role begin with; a property can have any name. -/
def initials : MemberRole → List Char
  | state | backing => ['$']
  | property => []
  | getter => ['g', 'i']
  | setter => ['s']

/-- Besides the two fields, roles are told apart by the first character. -/
theorem eq_of_initials {r r' : MemberRole} {c : Char} (hc : c ∈ r.initials) (hc' : c ∈ r'.initials) :
    r = r' ∨ r = state ∧ r' = backing ∨ r = backing ∧ r' = state := by
  have hall : ∀ r ∈ all, ∀ r' ∈ all, r.initials.any (r'.initials.contains ·) = true →
      r = r' ∨ r = state ∧ r' = backing ∨ r = backing ∧ r' = state := by decide
  refine hall r (mem_all r) r' (mem_all r') (List.any_eq_true.2 ⟨c, hc, ?_⟩)
  exact List.contains_iff_mem.2 hc'

end MemberRole

namespace Entity

/-- The field that holds the value of a property of an interface. -/
def backingField (p : Property) : String :=
  "$" ++ p.name ++ "_value"

/-- The name of the member that is generated for a property in a role, if one is. -/
def member? (e : Entity) (p : Property) : MemberRole → Option String
  | .state => if e.tracksState && !p.isTransient then some p.stateField else none
  | .backing => if e.isInterface then some (backingField p) else none
  | .property => if e.isInterface && p.memberKind != .method then some p.name else none
  | .getter =>
    if p.memberKind = .method then if e.isInterface then some p.memberName else none
    else if e.nameStyle.isPlain then none
    else some (p.getterName e.nameStyle)
  | .setter =>
    if p.isReadOnly || e.nameStyle.isPlain || (p.memberKind == .method && !e.isInterface) then none
    else some (p.setterName e.nameStyle)

variable {e : Entity} {p q : Property} {r r' : MemberRole} {name : String}

theorem state_iff : e.member? p .state = some name ↔
    e.tracksState = true ∧ p.isTransient = false ∧ name = p.stateField := by
  unfold member?
  rw [Option.ite_none_right_eq_some, Bool.and_eq_true, Bool.not_eq_true', and_assoc,
    Option.some.injEq, eq_comm (a := p.stateField)]

theorem backing_iff :
    e.member? p .backing = some name ↔ e.isInterface = true ∧ name = backingField p := by
  unfold member?
  rw [Option.ite_none_right_eq_some, Option.some.injEq, eq_comm (a := backingField p)]

theorem property_iff : e.member? p .property = some name ↔
    e.isInterface = true ∧ p.memberKind ≠ .method ∧ name = p.name := by
  unfold member?
  rw [Option.ite_none_right_eq_some, Bool.and_eq_true, bne_iff_ne, and_assoc, Option.some.injEq,
    eq_comm (a := p.name)]

theorem getter_eq (h : e.member? p .getter = some name) :
    (p.memberKind = .method ∧ name = p.memberName) ∨
      p.memberKind ≠ .method ∧ e.nameStyle.isPlain = false ∧ name = p.getterName e.nameStyle := by
  unfold member? at h
  by_cases hkind : p.memberKind = .method
  · rw [if_pos hkind] at h
    obtain ⟨-, h⟩ := Option.ite_none_right_eq_some.1 h
    exact Or.inl ⟨hkind, (Option.some.inj h).symm⟩
  · rw [if_neg hkind] at h
    obtain ⟨hstyle, h⟩ := Option.ite_none_left_eq_some.1 h
    exact Or.inr ⟨hkind, by simpa using hstyle, (Option.some.inj h).symm⟩

theorem setter_eq (h : e.member? p .setter = some name) :
    e.nameStyle.isPlain = false ∧ name = "set" ++ Naming.capitalize p.name := by
  unfold member? at h
  obtain ⟨hsome, h⟩ := Option.ite_none_left_eq_some.1 h
  simp only [Bool.or_eq_true, not_or, Bool.not_eq_true] at hsome
  rw [Property.setterName_of_not_isPlain hsome.1.2, Option.some.injEq] at h
  exact ⟨hsome.1.2, h.symm⟩

theorem head?_dollar (tail : String) : ("$" ++ tail).toList.head? = some '$' := by
  rw [String.toList_append]
  rfl

/-- Names of generated members begin as their roles say. -/
theorem head?_of_member? (hp : p.IsNamed) (hr : r ≠ .property) (h : e.member? p r = some name) :
    ∃ c ∈ r.initials, name.toList.head? = some c := by
  cases r with
  | state =>
    obtain ⟨-, -, rfl⟩ := state_iff.1 h
    refine ⟨'$', by decide, ?_⟩
    show ("$" ++ p.name ++ "_state").toList.head? = _
    rw [String.append_assoc]
    exact head?_dollar _
  | backing =>
    obtain ⟨-, rfl⟩ := backing_iff.1 h
    refine ⟨'$', by decide, ?_⟩
    unfold backingField
    rw [String.append_assoc]
    exact head?_dollar _
  | property => exact absurd rfl hr
  | getter =>
    rcases getter_eq h with ⟨hkind, rfl⟩ | ⟨-, hstyle, rfl⟩
    · rcases Naming.head_of_propertyOfGetter? (hp.getter hkind) with hhead | hhead
      · exact ⟨'g', by decide, hhead⟩
      · exact ⟨'i', by decide, hhead⟩
    · rw [Property.getterName_of_not_isPlain hstyle, String.toList_append]
      cases p.type.isBoolean with
      | true => exact ⟨'i', by decide, rfl⟩
      | false => exact ⟨'g', by decide, rfl⟩
  | setter =>
    obtain ⟨-, rfl⟩ := setter_eq h
    refine ⟨'s', by decide, ?_⟩
    rw [String.toList_append]
    rfl

theorem stateField_ne_backingField (p q : Property) : p.stateField ≠ backingField q := by
  intro h
  have hlists : ("$" ++ p.name).toList ++ "_state".toList =
      ("$" ++ q.name).toList ++ "_value".toList := by
    rw [← String.toList_append, ← String.toList_append]
    exact congrArg String.toList h
  have hlength : "_state".toList.length = "_value".toList.length := by decide
  have hend : "_state".toList ≠ "_value".toList := by decide
  exact hend (List.append_inj_right' hlists hlength)

/-- A name that is not a property's tells the role of its member. -/
theorem role_eq (hp : p.IsNamed) (hq : q.IsNamed) (hr : r ≠ .property) (hr' : r' ≠ .property)
    (h : e.member? p r = some name) (h' : e.member? q r' = some name) : r = r' := by
  obtain ⟨c, hc, hhead⟩ := head?_of_member? hp hr h
  obtain ⟨c', hc', hhead'⟩ := head?_of_member? hq hr' h'
  have hsame : c = c' := Option.some.inj (hhead.symm.trans hhead')
  rcases MemberRole.eq_of_initials hc (hsame ▸ hc') with heq | ⟨rfl, rfl⟩ | ⟨rfl, rfl⟩
  · exact heq
  · have hfield := (state_iff.1 h).2.2.symm.trans (backing_iff.1 h').2
    exact absurd hfield (stateField_ne_backingField p q)
  · have hfield := (state_iff.1 h').2.2.symm.trans (backing_iff.1 h).2
    exact absurd hfield (stateField_ne_backingField q p)

/-- A member that is not the property itself has a name of its own. -/
theorem member_ne_name (hkind : p.memberKind ≠ .method) (hr : r = .getter ∨ r = .setter)
    (h : e.member? p r = some name) : name ≠ p.name := by
  rcases hr with rfl | rfl
  · obtain ⟨hmethod, -⟩ | ⟨-, hstyle, rfl⟩ := getter_eq h
    · exact absurd hmethod hkind
    · exact Property.getterName_ne_name hstyle
  · obtain ⟨hstyle, rfl⟩ := setter_eq h
    exact Naming.prefixed_ne (by decide) p.name

/-! ## What can clash -/

/-- The generated members of a type do not clash. -/
structure MembersApart (e : Entity) : Prop where
  standard : ∀ p ∈ e.properties, p.name ∉ standardNames
  /-- a property of an interface can be named like a field -/
  fields : ∀ p ∈ e.properties, ∀ q ∈ e.properties, ∀ name,
    e.member? p .state = some name ∨ e.member? p .backing = some name →
      e.member? q .property ≠ some name
  /-- names can differ in the case of the first letter -/
  getters : ∀ p ∈ e.properties, ∀ q ∈ e.properties, ∀ name,
    e.member? p .getter = some name → e.member? q .getter = some name → p.name = q.name
  setters : ∀ p ∈ e.properties, ∀ q ∈ e.properties, ∀ name,
    e.member? p .setter = some name → e.member? q .setter = some name → p.name = q.name
  /-- a property can be named like the getter or the setter of another -/
  methods : ∀ p ∈ e.properties, ∀ q ∈ e.properties, p.name ≠ q.name →
    e.member? p .getter ≠ some q.name ∧ e.member? p .setter ≠ some q.name

/-- No member has a name in two roles, or for two properties. -/
def MembersDistinct (e : Entity) : Prop :=
  ∀ p ∈ e.properties, ∀ q ∈ e.properties, ∀ r r' name,
    e.member? p r = some name → e.member? q r' = some name → r = r' ∧ p.name = q.name

theorem notMem_standardNames (hnamed : ∀ p ∈ e.properties, p.IsNamed) (hp : p ∈ e.properties)
    (hr : r ≠ .property) (h : e.member? p r = some name) : name ∉ standardNames := by
  intro hmem
  obtain ⟨c, hc, hhead⟩ := head?_of_member? (hnamed p hp) hr h
  have hinitials : ∀ r ∈ MemberRole.all, ∀ n ∈ standardNames,
      n.toList.head?.any (r.initials.contains ·) = false := by decide
  have hfirst := hinitials r (MemberRole.mem_all r) name hmem
  rw [hhead, Option.any_some, List.contains_iff_mem.2 hc] at hfirst
  cases hfirst

theorem MembersApart.ne_property (h : e.MembersApart)
    (hnames : (e.properties.map Property.name).Nodup) (hp : p ∈ e.properties)
    (hq : q ∈ e.properties) (hr : r ≠ .property) (hname : e.member? p r = some name) :
    e.member? q .property ≠ some name := by
  intro hproperty
  cases r with
  | state => exact h.fields p hp q hq name (Or.inl hname) hproperty
  | backing => exact h.fields p hp q hq name (Or.inr hname) hproperty
  | property => exact hr rfl
  | getter =>
    obtain ⟨-, hkind, rfl⟩ := property_iff.1 hproperty
    by_cases hsame : p.name = q.name
    · have hpq := List.inj_on_of_nodup_map hnames hp hq hsame
      subst hpq
      exact member_ne_name hkind (Or.inl rfl) hname rfl
    · exact (h.methods p hp q hq hsame).1 hname
  | setter =>
    obtain ⟨-, hkind, rfl⟩ := property_iff.1 hproperty
    by_cases hsame : p.name = q.name
    · have hpq := List.inj_on_of_nodup_map hnames hp hq hsame
      subst hpq
      exact member_ne_name hkind (Or.inr rfl) hname rfl
    · exact (h.methods p hp q hq hsame).2 hname

theorem MembersApart.membersDistinct (h : e.MembersApart)
    (hnames : (e.properties.map Property.name).Nodup) (hnamed : ∀ p ∈ e.properties, p.IsNamed) :
    e.MembersDistinct := by
  intro p hp q hq r r' name hname hname'
  have hrole : r = r' := by
    by_cases hr : r = .property
    · by_cases hr' : r' = .property
      · rw [hr, hr']
      · rw [hr] at hname
        exact absurd hname (h.ne_property hnames hq hp hr' hname')
    · by_cases hr' : r' = .property
      · rw [hr'] at hname'
        exact absurd hname' (h.ne_property hnames hp hq hr hname)
      · exact role_eq (hnamed p hp) (hnamed q hq) hr hr' hname hname'
  subst hrole
  refine ⟨rfl, ?_⟩
  cases r with
  | state =>
    have hfield : "$" ++ p.name ++ "_state" = "$" ++ q.name ++ "_state" :=
      (state_iff.1 hname).2.2.symm.trans (state_iff.1 hname').2.2
    exact (String.append_right_inj _).1 ((String.append_left_inj _).1 hfield)
  | backing =>
    have hfield : "$" ++ p.name ++ "_value" = "$" ++ q.name ++ "_value" :=
      (backing_iff.1 hname).2.symm.trans (backing_iff.1 hname').2
    exact (String.append_right_inj _).1 ((String.append_left_inj _).1 hfield)
  | property => exact (property_iff.1 hname).2.2.symm.trans (property_iff.1 hname').2.2
  | getter => exact h.getters p hp q hq name hname hname'
  | setter => exact h.setters p hp q hq name hname hname'

/-- Where names begin with a small letter, getters are told apart as the properties that they stand
for, setters likewise, and fields have the names of no property. -/
theorem membersApart_of_small (hnamed : ∀ p ∈ e.properties, p.IsNamed)
    (hsmall : ∀ p ∈ e.properties, Naming.IsSmall p.name) :
    e.MembersApart ↔ (∀ p ∈ e.properties, p.name ∉ standardNames) ∧
      ∀ p ∈ e.properties, ∀ q ∈ e.properties, p.name ≠ q.name →
        e.member? p .getter ≠ some q.name ∧ e.member? p .setter ≠ some q.name := by
  have hgetter {p : Property} (hp : p ∈ e.properties) {name : String}
      (h : e.member? p .getter = some name) : Naming.propertyOfGetter? name = some p.name := by
    obtain ⟨hkind, rfl⟩ | ⟨-, hstyle, rfl⟩ := getter_eq h
    · exact (hnamed p hp).getter hkind
    · rw [Property.getterName_of_not_isPlain hstyle]
      refine Naming.propertyOfGetter?_capitalize ?_ (hsmall p hp)
      cases p.type.isBoolean <;> decide
  constructor
  · intro h
    exact ⟨h.standard, h.methods⟩
  · rintro ⟨hstandard, hmethods⟩
    refine ⟨hstandard, ?_, ?_, ?_, hmethods⟩
    · intro p hp q hq name hfield hproperty
      obtain ⟨-, -, rfl⟩ := property_iff.1 hproperty
      have hrole : ∃ r : MemberRole, r.initials = ['$'] ∧ r ≠ .property ∧
          e.member? p r = some q.name := by
        rcases hfield with h | h
        · exact ⟨.state, rfl, by decide, h⟩
        · exact ⟨.backing, rfl, by decide, h⟩
      obtain ⟨r, hinitials, hr, hname⟩ := hrole
      obtain ⟨c, hc, hhead⟩ := head?_of_member? (hnamed p hp) hr hname
      obtain ⟨d, ds, hlist, hlower⟩ := hsmall q hq
      rw [hinitials, List.mem_singleton] at hc
      rw [hlist, List.head?_cons, hc, Option.some.injEq] at hhead
      rw [hhead] at hlower
      exact absurd hlower (by decide)
    · intro p hp q hq name hname hname'
      exact Option.some.inj ((hgetter hp hname).symm.trans (hgetter hq hname'))
    · intro p hp q hq name hname hname'
      obtain ⟨-, rfl⟩ := setter_eq hname
      obtain ⟨-, hcapital⟩ := setter_eq hname'
      refine Naming.capitalize_inj (hsmall p hp) (hsmall q hq) ?_
      exact (String.append_right_inj _).1 hcapital

end Entity

end Metamodel
