import Metamodel.Artifact.Rendering
import Metamodel.Proofs.Artifact.Agreement
import Metamodel.Proofs.Entity.Naming

/-!
# Generated access to properties

An attribute names the getter and the setter of its property. `Served` says that the text of the
implementation has them: lines that read the value from its place, and lines that store it there
and mark the property as modified. The one exception are the properties that `LacksSetter`: their
setter would have the name of the property itself, and is left out although no other lines write
the value.
-/

namespace Metamodel

/-- The lines stand in the text, one behind the other. -/
def HasLines (text : String) (lines : List String) : Prop :=
  ∃ all, text = Rendering.ofLines all ∧ lines <:+: all

namespace Entity

/-- Where an implementation keeps the value of a property: in a field of its own if it implements
an interface, and else in the property of the class that it extends. -/
def place (e : Entity) (p : Property) : String :=
  "this." ++ if e.isInterface then "$" ++ p.name ++ "_value" else p.name

/-- Statements that store a value and, if the entity tracks state, mark the property as modified. -/
def storing (e : Entity) (p : Property) : List String :=
  ("    " ++ e.place p ++ " = value;") ::
    if e.tracksState then ["    this." ++ p.stateField ++ " = PropertyState.MODIFIED;"] else []

/-- A method or accessor that gives the value of a property. -/
def getterLines (e : Entity) (p : Property) (name : String) : List String :=
  ["  " ++ name ++ "(): " ++ Derivation.valueType e.simpleName p ++ " \x7b",
    "    return " ++ e.place p ++ ";",
    "  \x7d"]

/-- A method that stores a value of a property. -/
def setterLines (e : Entity) (p : Property) (name : String) : List String :=
  ["  " ++ name ++ "(value: " ++ Derivation.valueType e.simpleName p ++ "): void \x7b"] ++
    e.storing p ++ ["  \x7d"]

/-- An accessor under the property's own name that stores a value. -/
def setAccessorLines (e : Entity) (p : Property) : List String :=
  ["  set " ++ p.name ++ "(value: " ++ Derivation.valueType e.simpleName p ++ ") \x7b"] ++
    e.storing p ++ ["  \x7d"]

/-- The declaration of the field that tracks the state of a property. -/
def stateLine (p : Property) : String :=
  "  " ++ p.stateField ++ ": PropertyState = PropertyState.FETCH;"

/-- Whether the setter of a property would have the property's name where no accessor of that name
is generated. -/
def LacksSetter (e : Entity) (p : Property) : Prop :=
  e.nameStyle.isPlain = true ∧ (e.isInterface = false ∨ p.memberKind = .method)

end Entity

/-- The implementation gives the access to a property that its attribute tells of; what it does not
generate, the extended class declares. -/
structure ImplementationArtifact.Served (i : ImplementationArtifact) (e : Entity)
    (declared : String → Prop) (p : Property) (a : AttributeModel) : Prop where
  name : a.name = p.name
  setter : ∀ name, a.setterName = some name → ¬e.LacksSetter p →
    HasLines (Rendering.implementation i) (e.setterLines p name) ∨
      name = p.name ∧ HasLines (Rendering.implementation i) (e.setAccessorLines p)
  lacking : e.LacksSetter p →
    ∃ c ∈ i.accessors, c.property = p.name ∧ c.setterName = none ∧ c.propertyAccessor = false
  state : e.tracksState = true →
    a.stateField = some p.stateField ∧
      HasLines (Rendering.implementation i) [Entity.stateLine p]
  getter : HasLines (Rendering.implementation i) (e.getterLines p a.getterName) ∨
    a.getterName = p.name ∧
      HasLines (Rendering.implementation i) (e.getterLines p ("get " ++ p.name)) ∨
    e.isInterface = false ∧ declared a.getterName

namespace Rendering

/-! ## The lines of an accessor -/

theorem given?_some {name : String} (h : name ≠ "") : given? (some name) = some name := by
  unfold given?
  rw [Option.filter_some, if_pos (by simpa using h)]

theorem given?_ite {c : Bool} {name : String} (h : name ≠ "") :
    given? (if c then some name else none) = if c then some name else none := by
  cases c with
  | true => exact given?_some h
  | false => rfl

section AccessorLines

variable {a : AccessorModel} {name : String}

theorem isInfix_getter (h : a.getterName = some name) (hname : name ≠ "") :
    ["  " ++ name ++ "(): " ++ a.valueType ++ " \x7b", "    return " ++ a.readExpression ++ ";",
      "  \x7d"] <:+: accessorLines a := by
  unfold accessorLines
  rw [h, given?_some hname]
  refine List.infix_append_of_infix_left (List.infix_append_of_infix_right ?_)
  exact (List.prefix_append _ [""]).isInfix

theorem isInfix_setter (h : a.setterName = some name) (hname : name ≠ "") :
    ["  " ++ name ++ "(value: " ++ a.valueType ++ "): void \x7b"] ++ storeLines a ++ ["  \x7d"] <:+:
      accessorLines a := by
  unfold accessorLines
  rw [h, given?_some hname]
  refine List.infix_append_of_infix_right ?_
  refine ⟨[], [""], ?_⟩
  simp

theorem isInfix_getAccessor (h : a.propertyAccessor = true) :
    ["  " ++ ("get " ++ a.property) ++ "(): " ++ a.valueType ++ " \x7b",
      "    return " ++ a.readExpression ++ ";", "  \x7d"] <:+: accessorLines a := by
  unfold accessorLines
  rw [if_pos h]
  refine List.infix_append_of_infix_left (List.infix_append_of_infix_left ?_)
  exact List.infix_append_of_infix_left (List.prefix_append _ [""]).isInfix

theorem isInfix_setAccessor (h : a.propertyAccessor = true) (hwritable : a.writable = true) :
    ["  set " ++ a.property ++ "(value: " ++ a.valueType ++ ") \x7b"] ++ storeLines a ++ ["  \x7d"] <:+:
      accessorLines a := by
  unfold accessorLines
  rw [if_pos h, if_pos hwritable]
  refine List.infix_append_of_infix_left (List.infix_append_of_infix_left ?_)
  refine List.infix_append_of_infix_right ?_
  refine ⟨[], [""], ?_⟩
  simp

end AccessorLines

/-! ## The lines of an implementation -/

variable {i : ImplementationArtifact} {c : AccessorModel}

theorem hasLines_of_accessor (hc : c ∈ i.accessors) {lines : List String}
    (h : lines <:+: accessorLines c) : HasLines (implementation i) lines := by
  refine ⟨_, rfl, ?_⟩
  have hall : accessorLines c <:+: i.accessors.flatMap accessorLines :=
    List.infix_of_mem_flatten (List.mem_map_of_mem hc)
  exact List.infix_append_of_infix_left (List.infix_append_of_infix_right (h.trans hall))

theorem isInfix_singleton {line : String} {lines : List String} (h : line ∈ lines) :
    [line] <:+: lines := by
  obtain ⟨before, after, rfl⟩ := List.append_of_mem h
  refine ⟨before, after, ?_⟩
  rw [List.append_assoc, List.singleton_append]

/-- Each state field is declared in a line of its own. -/
theorem hasLines_state (hc : c ∈ i.accessors) {field : String} (hfield : field ≠ "")
    (h : c.stateField = some field) :
    HasLines (implementation i) ["  " ++ field ++ ": PropertyState = PropertyState.FETCH;"] := by
  refine ⟨_, rfl, ?_⟩
  have hmem : "  " ++ field ++ ": PropertyState = PropertyState.FETCH;" ∈
      i.accessors.filterMap fun a => (given? a.stateField).map fun s =>
        "  " ++ s ++ ": PropertyState = PropertyState.FETCH;" := by
    refine List.mem_filterMap.2 ⟨c, hc, ?_⟩
    rw [h, given?_some hfield]
    rfl
  -- behind the state fields stand the backing fields, a blank line, the accessors and the rest
  refine List.infix_append_of_infix_left (List.infix_append_of_infix_left ?_)
  refine List.infix_append_of_infix_left (List.infix_append_of_infix_left ?_)
  exact List.infix_append_of_infix_right (isInfix_singleton hmem)

end Rendering

namespace Derivation

/-! ## The accessor of a property -/

section Accessor

variable {e : Entity} {p : Property}

theorem readExpression_accessor (h : e.isInterface = true ∨ p.memberKind ≠ .method) :
    (accessor e p).readExpression = e.place p := by
  show (if e.isInterface then "this." ++ ("$" ++ p.name ++ "_value")
    else if p.memberKind == .method then _ else "this." ++ p.name) = _
  unfold Entity.place
  by_cases hinterface : e.isInterface = true
  · rw [if_pos hinterface, if_pos hinterface]
  · have hkind : ¬(p.memberKind == .method) = true := by
      intro heq
      exact (h.resolve_left hinterface) (eq_of_beq heq)
    rw [if_neg hinterface, if_neg hinterface, if_neg hkind]

theorem writeTarget_accessor (h : e.isInterface = true ∨ p.memberKind ≠ .method) :
    Rendering.writeTarget (accessor e p) = e.place p := by
  rw [← readExpression_accessor h]
  unfold Rendering.writeTarget accessor
  cases e.isInterface <;> rfl

theorem stateField_ne_empty (p : Property) : p.stateField ≠ "" := by
  show "$" ++ p.name ++ "_state" ≠ ""
  intro h
  have hlength := congrArg String.length h
  rw [String.length_append, String.length_append] at hlength
  have hdollar : "$".length = 1 := rfl
  rw [hdollar, String.length_empty] at hlength
  omega

theorem stateField_accessor (hp : p.isTransient = false) :
    (accessor e p).stateField = if e.tracksState then some p.stateField else none := by
  show (if e.tracksState && !p.isTransient then some p.stateField else none) = _
  rw [hp, Bool.not_false, Bool.and_true]

theorem storeLines_accessor (hp : p.isTransient = false)
    (h : e.isInterface = true ∨ p.memberKind ≠ .method) :
    Rendering.storeLines (accessor e p) = e.storing p := by
  unfold Rendering.storeLines Entity.storing
  rw [writeTarget_accessor h, stateField_accessor hp]
  by_cases hstate : e.tracksState = true
  · rw [if_pos hstate, if_pos hstate, Rendering.given?_some (stateField_ne_empty p)]
    rfl
  · rw [if_neg hstate, if_neg hstate]
    rfl

theorem distinctFrom_of_ne {name : String} (hname : name ≠ p.name) (hmember : name ≠ p.memberName) :
    distinctFrom p name = some name := by
  unfold distinctFrom
  rw [if_neg]
  rintro (h | h)
  · exact hname h
  · exact hmember h

/-- A writable property whose setter has a name of its own gets that setter. -/
theorem setterName_accessor (hp : p.IsNamed) (hstyle : e.nameStyle.isPlain = false)
    (hwritable : p.isReadOnly = false) (h : e.isInterface = true ∨ p.memberKind ≠ .method) :
    (accessor e p).setterName = some (p.setterName e.nameStyle) := by
  show (if p.memberKind == .method && !e.isInterface then none else accessorSetter e p) = _
  rw [if_neg]
  · unfold accessorSetter
    rw [hwritable, if_neg Bool.false_ne_true]
    exact distinctFrom_of_ne (Property.setterName_ne_name hstyle) (hp.setterName_ne_memberName hstyle)
  · intro hnone
    rw [Bool.and_eq_true, Bool.not_eq_true', beq_iff_eq] at hnone
    rcases h with h | h
    · rw [hnone.2] at h
      cases h
    · exact h hnone.1

/-- Under the property's own name no setter is made. -/
theorem setterName_accessor_of_isPlain (hstyle : e.nameStyle.isPlain = true) :
    (accessor e p).setterName = none := by
  show (if p.memberKind == .method && !e.isInterface then none else accessorSetter e p) = none
  have hnone : accessorSetter e p = none := by
    unfold accessorSetter distinctFrom
    rw [if_pos (Or.inl (Property.setterName_of_isPlain hstyle)), ite_self]
  rw [hnone, ite_self]

theorem getterName_accessor_of_field (hkind : p.memberKind ≠ .method) (hp : p.IsNamed)
    (hstyle : e.nameStyle.isPlain = false) :
    (accessor e p).getterName = some (p.getterName e.nameStyle) := by
  show (if p.memberKind == .method then _ else distinctFrom p (p.getterName e.nameStyle)) = _
  rw [if_neg (by simpa using hkind)]
  refine distinctFrom_of_ne (Property.getterName_ne_name hstyle) ?_
  rw [hp.memberName_eq hkind]
  exact Property.getterName_ne_name hstyle

theorem getterName_accessor_of_method (hkind : p.memberKind = .method)
    (hinterface : e.isInterface = true) : (accessor e p).getterName = some p.memberName := by
  show (if p.memberKind == .method then (if e.isInterface then some p.memberName else none)
    else _) = _
  rw [hkind, hinterface]
  rfl

end Accessor

/-! ## Attributes and accessors -/

section Served

variable (g : Graph) (o : DeriveOptions) {e : Entity} {p : Property}

theorem hasLines_setter (hp : p ∈ e.persistentProperties) (hnamed : p.IsNamed)
    (hstyle : e.nameStyle.isPlain = false) (hwritable : p.isReadOnly = false)
    (hplace : e.isInterface = true ∨ p.memberKind ≠ .method) :
    HasLines (Rendering.implementation (implementation o e))
      (e.setterLines p (p.setterName e.nameStyle)) := by
  obtain ⟨hmem, hstored⟩ := List.mem_filter.1 hp
  refine Rendering.hasLines_of_accessor (List.mem_map_of_mem hmem) ?_
  unfold Entity.setterLines
  rw [← storeLines_accessor (by simpa using hstored) hplace]
  refine @Rendering.isInfix_setter (accessor e p) (p.setterName e.nameStyle) ?_ ?_
  · exact setterName_accessor hnamed hstyle hwritable hplace
  · exact hnamed.setterName_ne_empty

theorem hasLines_setAccessor (hp : p ∈ e.persistentProperties) (hwritable : p.isReadOnly = false)
    (hinterface : e.isInterface = true) (hkind : p.memberKind ≠ .method) :
    HasLines (Rendering.implementation (implementation o e)) (e.setAccessorLines p) := by
  obtain ⟨hmem, hstored⟩ := List.mem_filter.1 hp
  refine Rendering.hasLines_of_accessor (List.mem_map_of_mem hmem) ?_
  unfold Entity.setAccessorLines
  rw [← storeLines_accessor (by simpa using hstored) (Or.inl hinterface)]
  refine @Rendering.isInfix_setAccessor (accessor e p) ?_ ?_
  · show (e.isInterface && !(p.memberKind == .method)) = true
    rw [hinterface, beq_false_of_ne hkind]
    rfl
  · show (!p.isReadOnly && (e.isInterface || !(p.memberKind == .method))) = true
    rw [hwritable, hinterface]
    rfl

theorem hasLines_getter (hp : p ∈ e.properties) {name : String} (hname : name ≠ "")
    (hgetter : (accessor e p).getterName = some name)
    (hplace : e.isInterface = true ∨ p.memberKind ≠ .method) :
    HasLines (Rendering.implementation (implementation o e)) (e.getterLines p name) := by
  refine Rendering.hasLines_of_accessor (List.mem_map_of_mem hp) ?_
  unfold Entity.getterLines
  rw [← readExpression_accessor hplace]
  exact @Rendering.isInfix_getter (accessor e p) name hgetter hname

theorem hasLines_getAccessor (hp : p ∈ e.properties) (hinterface : e.isInterface = true)
    (hkind : p.memberKind ≠ .method) :
    HasLines (Rendering.implementation (implementation o e))
      (e.getterLines p ("get " ++ p.name)) := by
  refine Rendering.hasLines_of_accessor (List.mem_map_of_mem hp) ?_
  unfold Entity.getterLines
  rw [← readExpression_accessor (Or.inl hinterface)]
  refine @Rendering.isInfix_getAccessor (accessor e p) ?_
  show (e.isInterface && !(p.memberKind == .method)) = true
  rw [hinterface, beq_false_of_ne hkind]
  rfl

/-- A setter is advertised for a writable property that has a place. -/
theorem setterName_attributeModel {name : String}
    (h : (attributeModel g e p).setterName = some name) :
    name = p.setterName e.nameStyle ∧ p.isReadOnly = false ∧
      (e.isInterface = true ∨ p.memberKind ≠ .method) := by
  have hname : (if isReadOnlyAttribute e p then none else some (p.setterName e.nameStyle)) =
    some name := h
  by_cases hread : isReadOnlyAttribute e p = true
  · rw [if_pos hread] at hname
    cases hname
  · rw [if_neg hread, Option.some.injEq] at hname
    rw [Bool.not_eq_true] at hread
    unfold isReadOnlyAttribute at hread
    simp only [Bool.or_eq_false_iff, Bool.and_eq_false_iff, Bool.not_eq_false', beq_eq_false_iff_ne]
      at hread
    exact ⟨hname.symm, hread.1.1, hread.2⟩

/-- Where a getter method stands for the property, it is read through that method; any other
property is read through a getter of its own or under its own name. -/
theorem getterName_attributeModel :
    (attributeModel g e p).getterName =
      if p.memberKind = .method then p.memberName else p.getterName e.nameStyle := rfl

/-- The getter of a property is generated, unless it is the member that the property is read
off. -/
theorem hasLines_getterName (hp : p ∈ e.properties) (hnamed : p.IsNamed) :
    HasLines (Rendering.implementation (implementation o e))
        (e.getterLines p (attributeModel g e p).getterName) ∨
      (attributeModel g e p).getterName = p.name ∧
        HasLines (Rendering.implementation (implementation o e))
          (e.getterLines p ("get " ++ p.name)) ∨
      e.isInterface = false ∧ (attributeModel g e p).getterName = p.memberName := by
  rw [getterName_attributeModel]
  by_cases hkind : p.memberKind = .method
  · rw [if_pos hkind]
    cases hinterface : e.isInterface with
    | true =>
      left
      exact hasLines_getter o hp hnamed.memberName_ne
        (getterName_accessor_of_method hkind hinterface) (Or.inl hinterface)
    | false => exact Or.inr (Or.inr ⟨rfl, rfl⟩)
  · rw [if_neg hkind]
    cases hstyle : e.nameStyle.isPlain with
    | false =>
      left
      exact hasLines_getter o hp hnamed.getterName_ne_empty
        (getterName_accessor_of_field hkind hnamed hstyle) (Or.inr hkind)
    | true =>
      right
      rw [Property.getterName_of_isPlain hstyle]
      cases hinterface : e.isInterface with
      | true => exact Or.inl ⟨rfl, hasLines_getAccessor o hp hinterface hkind⟩
      | false => exact Or.inr ⟨rfl, (hnamed.memberName_eq hkind).symm⟩

/-- The implementation serves every stored property whose member the declared type has. -/
theorem served_attributeModel {declared : String → Prop} (hp : p ∈ e.persistentProperties)
    (hnamed : p.IsNamed) (hdeclared : declared p.memberName) :
    (implementation o e).Served e declared p (attributeModel g e p) := by
  obtain ⟨hmem, hstored⟩ := List.mem_filter.1 hp
  have hc : accessor e p ∈ (implementation o e).accessors := List.mem_map_of_mem hmem
  refine ⟨rfl, ?_, ?_, ?_, ?_⟩
  · intro name hname hlacks
    obtain ⟨rfl, hwritable, hplace⟩ := setterName_attributeModel g hname
    cases hstyle : e.nameStyle.isPlain with
    | false =>
      left
      exact hasLines_setter o hp hnamed hstyle hwritable hplace
    | true =>
      -- what does not lack its setter is a field or an accessor of an interface
      right
      have hkind : p.memberKind ≠ .method := fun h => hlacks ⟨hstyle, Or.inr h⟩
      have hinterface : e.isInterface = true := by
        by_contra h
        exact hlacks ⟨hstyle, Or.inl (eq_false_of_ne_true h)⟩
      refine ⟨Property.setterName_of_isPlain hstyle, ?_⟩
      exact hasLines_setAccessor o hp hwritable hinterface hkind
  · rintro ⟨hstyle, hmember⟩
    refine ⟨accessor e p, hc, rfl, setterName_accessor_of_isPlain hstyle, ?_⟩
    show (e.isInterface && !(p.memberKind == .method)) = false
    rcases hmember with h | h
    · rw [h, Bool.false_and]
    · rw [h]
      exact Bool.and_false _
  · intro hstate
    have hfield : (accessor e p).stateField = some p.stateField := by
      rw [stateField_accessor (by simpa using hstored), if_pos hstate]
    refine ⟨?_, Rendering.hasLines_state hc (stateField_ne_empty p) hfield⟩
    show (if e.tracksState then some p.stateField else none) = _
    rw [if_pos hstate]
  · rcases hasLines_getterName g o hmem hnamed with h | h | ⟨hclass, heq⟩
    · exact Or.inl h
    · exact Or.inr (Or.inl h)
    · refine Or.inr (Or.inr ⟨hclass, ?_⟩)
      rw [heq]
      exact hdeclared

end Served

end Derivation

end Metamodel
