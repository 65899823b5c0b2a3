import Metamodel.Proofs.Entity.Walk
import Metamodel.Proofs.Run.Remarks

/-!
# The supertypes of an entity

The supertype walk of an entity ends, whatever its supertypes are: cycles, repeated and blank names,
or the entity itself. It visits an ancestor once, and of every supertype that does not resolve it is
told once (`followsWalk_of_buildEntity`).
-/

namespace Metamodel

/-! ## Unresolved supertypes -/

/-- The errors that supertypes of a type do not resolve. -/
def Built.supertypeReports (b : Built) : List Diagnostic :=
  b.diagnostics.filter fun f => f.code == .unresolvedType && f.property == none

theorem unresolvedSupertype_inj {own : String} {location : Option Location} {name name' : String}
    (h : unresolvedSupertype own location name = unresolvedSupertype own location name') :
    name = name' := by
  have hmessage := congrArg (fun f : Diagnostic => f.message.toList) h
  simpa [unresolvedSupertype, String.toList_inj] using hmessage

theorem mem_unresolved_iff {s : DeclarationSource} {d : Declaration} {own name : String} :
    name ∈ (Ancestry.of s d own).unresolved ↔
      (Ancestry.chain s (Ancestry.otherNames s own) d).2 = some name ∨
        ∃ ref ∈ d.supers, ref.isUnresolved = true ∧ ref.name = name := by
  simp [Ancestry.of, and_assoc]

/-- No error about a property is one about a supertype. -/
theorem IsBuilt.supertypeReports_eq {c : Context} {kind : EntityKind} {d : Declaration}
    {members : List Member} {b : Built} (hb : IsBuilt c kind d members b)
    (h : buildEntity c d kind = .ok b) :
    b.supertypeReports = c.source.supertypeFindings kind d b.entity.qualifiedName := by
  rw [Built.supertypeReports, hb.filter_unresolved h (· == none)]
  simp

/-! ## The walk of an entity -/

/-- The supertype walk of an entity, in the course of which it visits the ancestors and comes to the
last declaration. -/
structure Built.FollowsWalk (b : Built) (c : Context) (d : Declaration) (members : List Member)
    (ancestors : List String) (last : Declaration) : Prop where
  /-- the walk makes as many steps as there are ancestors, and then ends -/
  ends : ∀ n, (Walk.after? c.source n (.start d b.entity.qualifiedName)).isSome ↔
    n ≤ ancestors.length
  arrives : Walk.after? c.source ancestors.length (.start d b.entity.qualifiedName) =
    some ⟨last, b.entity.qualifiedName :: ancestors⟩
  /-- with the attempt that ends it, the walk takes no more steps than there are declared names -/
  bounded : ancestors.length + 1 ≤ c.source.knownNames.length
  /-- no ancestor is visited twice, and the entity itself is none -/
  once : (b.entity.qualifiedName :: ancestors).Nodup
  merged : ⟨b.entity.properties, b.entity.listeners⟩ =
    (c.ownMembers d b.entity.owner members).mergeAll c.ancestor?
      (ancestors ++ c.source.directInterfaces d)
  /-- direct interfaces that the walk has visited too count only once -/
  mergedOnce : ⟨b.entity.properties, b.entity.listeners⟩ =
    (c.ownMembers d b.entity.owner members).mergeAll c.ancestor?
      (ancestors ++ c.source.directInterfaces d).eraseDups
  /-- of each name of an unresolved supertype there is one error, and of no other name -/
  reported : ∀ name,
    b.diagnostics.count (unresolvedSupertype b.entity.qualifiedName d.source name) =
    if last.unresolvedParent? = some name ∨
      ∃ ref ∈ d.supers, ref.isUnresolved = true ∧ ref.name = name then 1 else 0
  /-- there are no other errors about supertypes -/
  complete : ∀ f ∈ b.supertypeReports, ∃ name,
    f = unresolvedSupertype b.entity.qualifiedName d.source name

theorem count_unresolvedSupertype {b : Built} {own : String} {location : Option Location}
    {names : List String} (h : b.supertypeReports = names.map (unresolvedSupertype own location))
    (hnames : names.Nodup) (name : String) :
    b.diagnostics.count (unresolvedSupertype own location name) =
      if name ∈ names then 1 else 0 := by
  have hreport : b.diagnostics.count (unresolvedSupertype own location name) =
      b.supertypeReports.count (unresolvedSupertype own location name) :=
    (List.count_filter rfl).symm
  have hinj : Function.Injective (unresolvedSupertype own location) :=
    fun _ _ => unresolvedSupertype_inj
  rw [hreport, h, (hnames.map hinj).count]
  exact if_congr (List.mem_map_of_injective hinj) rfl rfl

/-- An entity has its own members and those of the chain and of its direct interfaces. -/
theorem IsBuilt.members_eq {c : Context} {d : Declaration} {members : List Member} {b : Built}
    (hb : IsBuilt c .entity d members b) :
    (⟨b.entity.properties, b.entity.listeners⟩ : Members) =
      (c.ownMembers d b.entity.owner members).mergeAll c.ancestor?
        ((Ancestry.chain c.source (Ancestry.otherNames c.source b.entity.qualifiedName) d).1 ++
          c.source.directInterfaces d) := by
  rw [hb.properties_eq, hb.listeners_eq, ← interfaces_eq_directInterfaces]
  rfl

/-- The supertype walk of an entity ends, visits each ancestor once, and has every unresolved
supertype reported once. -/
theorem followsWalk_of_buildEntity {c : Context} {d : Declaration} {b : Built}
    (h : buildEntity c d .entity = .ok b) (hd : d ∈ c.source.declarations) :
    ∃ members ancestors last, c.source.members d = .ok members ∧
      b.FollowsWalk c d members ancestors last := by
  obtain ⟨members, hb⟩ := isBuilt_of_buildEntity h
  obtain ⟨last, hvisits, hlast⟩ :=
    Ancestry.exists_visits_start c.source d b.entity.qualifiedName
  have hsound := (Walk.sound_start hd hb.named).after hvisits.arrives
  have hmerged := hb.members_eq
  have hreports := hb.supertypeReports_eq h
  refine ⟨members, _, last, hb.supplied, Walk.isSome_after?_iff hvisits.arrives hvisits.ends,
    hvisits.arrives, hsound.length_le, hsound.nodup, hmerged, ?_, ?_, ?_⟩
  · rw [Members.mergeAll_eraseDups]
    exact hmerged
  · intro name
    rw [count_unresolvedSupertype hreports (nodup_eraseDups _), hlast]
    exact if_congr mem_unresolved_iff rfl rfl
  · intro f hf
    rw [hreports] at hf
    exact exists_of_mem_supertypeFindings hf

namespace Sample

/-- Two superclasses that extend each other. -/
def wrapping : Declaration :=
  type .class "Wrapping" ["Superclass"] ["Packing"] [field "paper" []]

def packing : Declaration :=
  type .class "Packing" ["Superclass"] ["Wrapping"] [field "box" []]

/-- A class that extends one of them, and twice a type that does not resolve. -/
def parcel : Declaration :=
  { type .class "Parcel" ["Entity"] [] [field "id" ["Key"]] with
    superTypes := some [typeNamed "Wrapping", missing, missing] }

def cyclic : Context :=
  (Run.build (.ofDeclarations [parcel, wrapping, packing] (.create true)) .default).context

end Sample

theorem followsWalk_of_parcel :
    ∃ b, buildEntity Sample.cyclic Sample.parcel .entity = .ok b ∧
      b.entity.properties.map (·.name) = ["id", "paper", "box"] ∧
      b.diagnostics.map (·.message) = ["Supertype Missing of shop.Parcel cannot be resolved"] ∧
      Sample.parcel ∈ Sample.cyclic.source.declarations ∧
      ∃ members ancestors last, Sample.cyclic.source.members Sample.parcel = .ok members ∧
        b.FollowsWalk Sample.cyclic Sample.parcel members ancestors last := by
  obtain ⟨b, hb, hexpected⟩ := exists_ok_of_any
    (x := buildEntity Sample.cyclic Sample.parcel .entity)
    (fun b => b.entity.properties.map (·.name) == ["id", "paper", "box"] &&
      b.diagnostics.map (·.message) == ["Supertype Missing of shop.Parcel cannot be resolved"])
    (by decide +kernel)
  simp only [Bool.and_eq_true, beq_iff_eq] at hexpected
  have hd : Sample.parcel ∈ Sample.cyclic.source.declarations := by
    rw [Sample.cyclic, Run.source_build]
    exact List.mem_cons_self
  exact ⟨b, hb, hexpected.1, hexpected.2, hd, followsWalk_of_buildEntity hb hd⟩

end Metamodel
