import Metamodel.Proofs.Artifact.MemberNames
import Metamodel.Proofs.Entity.Identifier
import Metamodel.Proofs.Text.Quoted

/-!
# Identifiers in generated classes

What a generated class is given because of a member is made of the member's name, and stands where
only identifiers can. All of it are identifiers exactly when the names of the members are
(`wellNamed_metadata_iff`, `wellNamed_implementation_iff`). The type of a property's values is looked up
under the name, which is put between quotes as it is: so the literal reads back as the name exactly when
nothing in it would have to be escaped (`looksUp_iff`).
-/

namespace Metamodel

open Naming (isIdentifier IsAscii)

open ImplementationArtifact (standardNames)

/-- The names that a metadata class has because of members: those of its attributes, of the state
fields that these access, and of the methods that listeners call. -/
def MetadataArtifact.memberWords (m : MetadataArtifact) : List String :=
  m.attributes.flatMap (fun a => a.fieldName :: a.stateField.toList) ++
    m.listeners.map (·.methodName)

namespace Entity

/-- The member that is read for the value of a property. -/
def readMember (e : Entity) (p : Property) : String :=
  if e.isInterface then backingField p
  else if p.memberKind = .method then p.memberName
  else p.name

/-- What stands behind the member that is read: a method of a class is called. -/
def readCall (e : Entity) (p : Property) : String :=
  if e.isInterface = false ∧ p.memberKind = .method then "()" else ""

end Entity

namespace Property

/-- The type of a property's values, looked up under a literal. -/
def typeAt (p : Property) (owner literal : String) : String :=
  match p.memberKind with
  | .method => "ReturnType<" ++ owner ++ "[" ++ literal ++ "]>"
  | _ => owner ++ "[" ++ literal ++ "]"

/-- The text looks the type up under a literal of the member's name. -/
def IsLookedUp (p : Property) (owner text : String) : Prop :=
  ∃ literal, text = p.typeAt owner literal ∧
    Text.IsLiteral (Text.units literal.toList) (Text.units p.memberName.toList)

end Property

/-- The type of a property's values is looked up in the type that has it. -/
def Entity.LooksUp (e : Entity) (p : Property) : Prop :=
  p.IsLookedUp e.simpleName (Derivation.valueType e.simpleName p)

/-- The metadata class of a type is named by identifiers, and its attributes find their types. -/
structure MetadataArtifact.WellNamed (m : MetadataArtifact) (e : Entity) : Prop where
  words : ∀ w ∈ m.memberWords, isIdentifier w = true
  types : ∀ p ∈ e.persistentProperties, e.LooksUp p

/-- The expressions that read values from an instance. -/
def ImplementationArtifact.expressions (i : ImplementationArtifact) : List String :=
  i.accessors.map (·.readExpression) ++ i.equalityExpressions ++ i.describedFields.map (·.2)

/-- The members of an implementation are named by identifiers, its expressions read such members, and
its accessors find their types. -/
structure ImplementationArtifact.WellNamed (i : ImplementationArtifact) (e : Entity) : Prop where
  names : ∀ w ∈ i.memberNames, isIdentifier w = true
  reads : ∀ p ∈ e.properties, isIdentifier (e.readMember p) = true
  expressions : ∀ x ∈ i.expressions,
    ∃ p ∈ e.properties, x = "this." ++ e.readMember p ++ e.readCall p
  types : ∀ p ∈ e.properties, e.LooksUp p

/-! ## Types of values -/

namespace Derivation

variable {e : Entity} {p : Property} {owner : String}

theorem typeAt_inj {literal literal' : String}
    (h : p.typeAt owner literal = p.typeAt owner literal') : literal = literal' := by
  unfold Property.typeAt at h
  split at h <;> exact (String.append_right_inj _).1 ((String.append_left_inj _).1 h)

/-- The name is put between quotes as it is. -/
theorem valueType_eq_typeAt (hp : p.IsNamed) :
    valueType owner p = p.typeAt owner ("'" ++ p.memberName ++ "'") := by
  have hquoted (before after : String) : before ++ "['" ++ p.memberName ++ "']" ++ after =
      before ++ "[" ++ ("'" ++ p.memberName ++ "'") ++ "]" ++ after := by
    apply String.toList_inj.1
    simp [String.toList_append]
  by_cases hkind : p.memberKind = .method
  · simp only [valueType, Property.typeAt, hkind]
    simpa [String.append_assoc] using hquoted ("ReturnType<" ++ owner) ">"
  · have hname := hp.memberName_eq hkind
    unfold valueType Property.typeAt
    split
    · contradiction
    · simpa [String.append_assoc, hname] using hquoted owner ""

/-- The type is looked up under the name of the member exactly when nothing in it would have to be
escaped. -/
theorem looksUp_iff (hp : p.IsNamed) :
    e.LooksUp p ↔ Text.IsVerbatim p.memberName.toList := by
  have hchars : ("'" ++ p.memberName ++ "'").toList =
      '\x27' :: p.memberName.toList ++ ['\x27'] := by
    rw [String.toList_append, String.toList_append]
    rfl
  rw [← Text.isLiteral_self_iff, ← hchars, Entity.LooksUp, valueType_eq_typeAt hp]
  constructor
  · rintro ⟨literal, htext, hliteral⟩
    rwa [typeAt_inj htext]
  · intro h
    exact ⟨_, rfl, h⟩

theorem looksUp_of_isIdentifier (hp : p.IsNamed) (h : isIdentifier p.memberName = true) :
    e.LooksUp p :=
  (looksUp_iff hp).2 (Naming.isVerbatim_of_isIdentifier h)

/-! ## Metadata classes -/

theorem isIdentifier_stateField (hp : p.IsNamed) (h : isIdentifier p.memberName = true) :
    isIdentifier p.stateField = true := by
  have hname : isIdentifier ("$" ++ p.name ++ "_state") = true :=
    Naming.isIdentifier_wrapped (by decide) (hp.isIdentifier_name h) (by decide)
  exact hname

theorem mem_memberWords_iff (g : Graph) (o : DeriveOptions) {w : String} :
    w ∈ (metadata g o e).memberWords ↔
      (∃ p ∈ e.persistentProperties,
        w = Naming.upperUnderscore p.name ∨ e.tracksState = true ∧ w = p.stateField) ∨
      ∃ l ∈ e.listeners, w = l.methodName := by
  have hattributes : (metadata g o e).attributes = e.persistentProperties.map (attributeModel g e) :=
    rfl
  have hlisteners : (metadata g o e).listeners.map (·.methodName) = e.listeners.map (·.methodName) :=
    List.map_map
  have hstate (p : Property) : w ∈ (attributeModel g e p).stateField.toList ↔
      e.tracksState = true ∧ w = p.stateField := by
    show w ∈ (if e.tracksState then some p.stateField else none).toList ↔ _
    cases e.tracksState <;> simp
  unfold MetadataArtifact.memberWords
  rw [hattributes, hlisteners, List.mem_append, List.flatMap_map, List.mem_flatMap, List.mem_map]
  refine or_congr (exists_congr fun p => and_congr_right fun _ => ?_)
    (exists_congr fun l => and_congr_right fun _ => eq_comm)
  rw [List.mem_cons, hstate]
  rfl

/-- The constant of a stored property is always there, so that its member has to be named by an
identifier; and the method of a listener is called by its name. -/
theorem wellNamed_metadata_iff (g : Graph) (o : DeriveOptions)
    (hnamed : ∀ p ∈ e.properties, p.IsNamed) (hascii : ∀ p ∈ e.properties, IsAscii p.memberName) :
    (metadata g o e).WellNamed e ↔
      (∀ p ∈ e.persistentProperties, isIdentifier p.memberName = true) ∧
        ∀ l ∈ e.listeners, isIdentifier l.methodName = true := by
  have hstored {p : Property} (hp : p ∈ e.persistentProperties) : p ∈ e.properties :=
    (List.mem_filter.1 hp).1
  have hconstant {p : Property} (hp : p ∈ e.persistentProperties) :
      isIdentifier (Naming.upperUnderscore p.name) = true ↔ isIdentifier p.memberName = true := by
    obtain ⟨hname, hiff⟩ :=
      (hnamed p (hstored hp)).isIdentifier_name_iff (hascii p (hstored hp))
    rw [Naming.isIdentifier_upperUnderscore_iff hname, hiff]
  constructor
  · intro h
    refine ⟨fun p hp => ?_, fun l hl => ?_⟩
    · exact (hconstant hp).1 (h.words _ ((mem_memberWords_iff g o).2 (Or.inl ⟨p, hp, Or.inl rfl⟩)))
    · exact h.words _ ((mem_memberWords_iff g o).2 (Or.inr ⟨l, hl, rfl⟩))
  · rintro ⟨hproperties, hlisteners⟩
    refine ⟨fun w hw => ?_, fun p hp => ?_⟩
    · rcases (mem_memberWords_iff g o).1 hw with ⟨p, hp, rfl | ⟨-, rfl⟩⟩ | ⟨l, hl, rfl⟩
      · exact (hconstant hp).2 (hproperties p hp)
      · exact isIdentifier_stateField (hnamed p (hstored hp)) (hproperties p hp)
      · exact hlisteners l hl
    · exact looksUp_of_isIdentifier (hnamed p (hstored hp)) (hproperties p hp)

/-! ## Implementations -/

/-- A property is read off the member that the entity says, of the instance itself. -/
theorem readExpression_eq (e : Entity) (p : Property) :
    (accessor e p).readExpression = "this." ++ e.readMember p ++ e.readCall p := by
  show (if e.isInterface then "this." ++ ("$" ++ p.name ++ "_value")
    else if p.memberKind == .method then "this." ++ p.memberName ++ "()"
    else "this." ++ p.name) = _
  unfold Entity.readMember Entity.readCall Entity.backingField
  cases e.isInterface with
  | true => simp
  | false => by_cases hkind : p.memberKind = .method <;> simp [hkind]

/-- What an implementation reads, its accessors read. -/
theorem exists_of_mem_expressions (o : DeriveOptions) {x : String}
    (h : x ∈ (implementation o e).expressions) :
    ∃ p ∈ e.properties, x = "this." ++ e.readMember p ++ e.readCall p := by
  suffices hread : ∃ p ∈ e.properties, (accessor e p).readExpression = x by
    obtain ⟨p, hp, rfl⟩ := hread
    exact ⟨p, hp, readExpression_eq e p⟩
  have hstored {p : Property} (hp : p ∈ e.persistentProperties) : p ∈ e.properties :=
    (List.mem_filter.1 hp).1
  rcases List.mem_append.1 h with h | h
  · rcases List.mem_append.1 h with h | h
    · obtain ⟨_, ha, rfl⟩ := List.mem_map.1 h
      obtain ⟨p, hp, rfl⟩ := List.mem_map.1 ha
      exact ⟨p, hp, rfl⟩
    · obtain ⟨p, hp, rfl⟩ := List.mem_map.1 h
      split at hp
      · exact ⟨p, hstored hp, rfl⟩
      · exact ⟨p, hstored (List.mem_filter.1 hp).1, rfl⟩
  · obtain ⟨_, hfield, rfl⟩ := List.mem_map.1 h
    obtain ⟨p, hp, rfl⟩ := List.mem_map.1 hfield
    exact ⟨p, hstored hp, rfl⟩

theorem mem_memberNames_iff (o : DeriveOptions) (hnamed : ∀ p ∈ e.properties, p.IsNamed)
    {w : String} : w ∈ (implementation o e).memberNames ↔
      (∃ p ∈ e.properties, ∃ r, e.member? p r = some w) ∨ w ∈ standardNames := by
  rw [(memberNames_perm o hnamed).mem_iff, List.mem_append, List.mem_filterMap]
  refine or_congr_left ?_
  constructor
  · rintro ⟨⟨r, p⟩, hx, hname⟩
    exact ⟨p, (List.mem_product.1 hx).2, r, hname⟩
  · rintro ⟨p, hp, r, hname⟩
    exact ⟨(r, p), List.mem_product.2 ⟨r.mem_all, hp⟩, hname⟩

/-- In every role, a member has an identifier as its name if the property was read off one. -/
theorem isIdentifier_of_member? {r : MemberRole} {w : String} (hp : p.IsNamed)
    (h : isIdentifier p.memberName = true) (hw : e.member? p r = some w) : isIdentifier w = true := by
  have hname := hp.isIdentifier_name h
  cases r with
  | state =>
    obtain ⟨-, -, rfl⟩ := Entity.state_iff.1 hw
    exact isIdentifier_stateField hp h
  | backing =>
    obtain ⟨-, rfl⟩ := Entity.backing_iff.1 hw
    exact Naming.isIdentifier_wrapped (by decide) hname (by decide)
  | property =>
    obtain ⟨-, -, rfl⟩ := Entity.property_iff.1 hw
    exact hname
  | getter =>
    obtain ⟨-, rfl⟩ | ⟨-, hstyle, rfl⟩ := Entity.getter_eq hw
    · exact h
    · rw [Property.getterName_of_not_isPlain hstyle]
      refine Naming.isIdentifier_prefixed ?_ hname
      cases p.type.isBoolean <;> decide
  | setter =>
    obtain ⟨-, rfl⟩ := Entity.setter_eq hw
    exact Naming.isIdentifier_prefixed (by decide) hname

/-- What is read for a property has an identifier as its name if the property was read off one. -/
theorem isIdentifier_readMember (hp : p.IsNamed) (h : isIdentifier p.memberName = true) :
    isIdentifier (e.readMember p) = true := by
  have hname := hp.isIdentifier_name h
  unfold Entity.readMember
  split
  · exact Naming.isIdentifier_wrapped (by decide) hname (by decide)
  split
  · exact h
  · exact hname

/-- The name of the member itself is always printed: a class reads it, and the implementation of an
interface declares it. -/
theorem memberName_cases (o : DeriveOptions) (hnamed : ∀ p ∈ e.properties, p.IsNamed)
    (hp : p ∈ e.properties) :
    e.readMember p = p.memberName ∨ p.memberName ∈ (implementation o e).memberNames := by
  cases hinterface : e.isInterface with
  | false =>
    left
    unfold Entity.readMember
    rw [hinterface, if_neg Bool.false_ne_true]
    by_cases hkind : p.memberKind = .method
    · rw [if_pos hkind]
    · rw [if_neg hkind, (hnamed p hp).memberName_eq hkind]
  | true =>
    right
    refine (mem_memberNames_iff o hnamed).2 (Or.inl ⟨p, hp, ?_⟩)
    by_cases hkind : p.memberKind = .method
    · refine ⟨.getter, ?_⟩
      simp [Entity.member?, hkind, hinterface]
    · refine ⟨.property, Entity.property_iff.2 ⟨hinterface, hkind, ?_⟩⟩
      exact (hnamed p hp).memberName_eq hkind

theorem wellNamed_implementation_iff (o : DeriveOptions) (hnamed : ∀ p ∈ e.properties, p.IsNamed) :
    (implementation o e).WellNamed e ↔ ∀ p ∈ e.properties, isIdentifier p.memberName = true := by
  constructor
  · intro h p hp
    rcases memberName_cases o hnamed hp with hread | hmem
    · exact hread ▸ h.reads p hp
    · exact h.names _ hmem
  · intro h
    refine ⟨fun w hw => ?_, fun p hp => ?_, fun x hx => ?_, fun p hp => ?_⟩
    · rcases (mem_memberNames_iff o hnamed).1 hw with ⟨p, hp, r, hname⟩ | hstandard
      · exact isIdentifier_of_member? (hnamed p hp) (h p hp) hname
      · have hall : ∀ w ∈ standardNames, isIdentifier w = true := by decide
        exact hall w hstandard
    · exact isIdentifier_readMember (hnamed p hp) (h p hp)
    · exact exists_of_mem_expressions o hx
    · exact looksUp_of_isIdentifier (hnamed p hp) (h p hp)

end Derivation

end Metamodel
