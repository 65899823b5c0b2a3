import Metamodel.EntityType.Basic
import Metamodel.Proofs.Artifact.Access
import Metamodel.Proofs.Artifact.Members
import Metamodel.Proofs.Keyed

/-!
# Loading metadata classes

The static members of a metadata class are calls that define the attributes and the type of an entity
step by step (`hasLines_definitions`). To load the class is to perform the calls. Attributes become
what their models say (`loadAttribute_eq`), and the type has all of them, as long as their names are
distinct (`load_eq`). What is derived from an entity is loaded as its type (`Derivation.load_metadata`).
-/

namespace Metamodel

open Rendering

open Text (quote)

/-- Something that holds of an attribute or not. -/
inductive AttributeFlag where
  | key
  | generated
  | version
  | nullable
  | readOnly
  | lazy

/-- A call that defines an attribute. -/
inductive AttributeCall where
  | column (name : String)
  | getter (name : String)
  | setter (name : String)
  | flag (f : AttributeFlag)
  | cardinality (c : Cardinality)
  /-- the expression is evaluated when it is asked for -/
  | reference (expression : String)
  | state (implementation field : String)

/-- A call that defines a type with attributes. -/
inductive TypeCall where
  | table (name : String)
  | readOnly
  | stateless
  | immutable
  | factory (implementation : String)
  /-- adds the attribute that the model defines -/
  | addAttribute (model : AttributeModel)
  | addListener (model : ListenerModel)

/-! ## Performing calls -/

/-- The draft with a flag set to a value. -/
def AttributeDraft.withFlag (d : AttributeDraft) (value : Bool) : AttributeFlag → AttributeDraft
  | .key => { d with isKey := value }
  | .generated => { d with isGenerated := value }
  | .version => { d with isVersion := value }
  | .nullable => { d with isNullable := value }
  | .readOnly => { d with isReadOnly := value }
  | .lazy => { d with isLazy := value }

/-- The draft after a call, where expressions have the given values. -/
def AttributeDraft.perform (evaluate : String → Except String String) (d : AttributeDraft) :
    AttributeCall → AttributeDraft
  | .column name => { d with columnName := some name }
  | .getter name => { d with getterName := some name }
  | .setter name => { d with setterName := some name }
  | .flag f => d.withFlag true f
  | .cardinality c => { d with cardinality := some c }
  | .reference expression => { d with supplier := some ⟨expression, evaluate expression⟩ }
  | .state _ _ => { d with hasState := true }

/-- The draft after a call, where attributes are what they are read as. A factory is the class that
it makes instances of, and a listener the method that it calls. -/
def TypeDraft.perform (read : AttributeModel → Attribute) (d : TypeDraft String String) :
    TypeCall → Except DuplicateAttribute (TypeDraft String String)
  | .table name => .ok { d with tableName := name }
  | .readOnly => .ok { d with isReadOnly := true }
  | .stateless => .ok { d with isStateless := true }
  | .immutable => .ok { d with isImmutable := true }
  | .factory implementation => .ok { d with factory := some implementation }
  | .addAttribute model => d.addAttribute (read model)
  | .addListener model => .ok (d.addListener model.event model.methodName)

/-- The shape of the attributes that the method makes. -/
def BuilderMethod.shape : BuilderMethod → AttributeShape
  | build => .value
  | buildList => .list
  | buildSet => .set
  | buildCollection => .collection
  | buildMap => .map

/-! ## The calls of a class -/

/-- A call, when a condition holds. -/
def callIf {α : Type} (condition : Bool) (call : α) : List α :=
  if condition then [call] else []

namespace MetadataArtifact

variable (m : MetadataArtifact)

/-- The calls that define an attribute. -/
def attributeCalls (a : AttributeModel) : List AttributeCall :=
  [.column a.columnName, .getter a.getterName] ++
  (given? a.setterName).toList.map AttributeCall.setter ++
  callIf a.isKey (AttributeCall.flag .key) ++
  callIf a.isGenerated (AttributeCall.flag .generated) ++
  callIf a.isVersion (AttributeCall.flag .version) ++
  callIf a.isNullable (AttributeCall.flag .nullable) ++
  callIf a.isReadOnly (AttributeCall.flag .readOnly) ++
  callIf a.isLazy (AttributeCall.flag .lazy) ++
  a.cardinality.toList.map AttributeCall.cardinality ++
  (given? a.referencedType).toList.map AttributeCall.reference ++
  match given? a.stateField, given? m.implementationClass with
  | some field, some implementation => [.state implementation field]
  | _, _ => []

/-- The calls that define the type without attributes and listeners. -/
def settingCalls : List TypeCall :=
  [.table m.tableName] ++
  callIf m.isReadOnly TypeCall.readOnly ++
  callIf m.isStateless TypeCall.stateless ++
  callIf m.isImmutable TypeCall.immutable ++
  (given? m.implementationClass).toList.map TypeCall.factory

/-- The calls that define the type. -/
def typeCalls : List TypeCall :=
  m.settingCalls ++ m.attributes.map .addAttribute ++ m.listeners.map .addListener

/-- The attribute that the calls define. -/
def loadAttribute (evaluate : String → Except String String) (a : AttributeModel) : Attribute :=
  ((m.attributeCalls a).foldl (AttributeDraft.perform evaluate)
    (.start a.name a.declaredTypeName)).build a.builderMethod.shape

/-- The type that the calls define, unless there is an attribute twice. -/
def load (evaluate : String → Except String String) :
    Except DuplicateAttribute (EntityType String String) :=
  (m.typeCalls.foldlM (TypeDraft.perform (m.loadAttribute evaluate)) (.start m.entity)).map (·.build)

end MetadataArtifact

/-! ## Printed calls -/

/-- The line that sets a flag. -/
def AttributeFlag.line : AttributeFlag → String
  | key => "    .setKey(true)"
  | generated => "    .setGenerated(true)"
  | version => "    .setVersion(true)"
  | nullable => "    .setNullable(true)"
  | readOnly => "    .setReadOnly(true)"
  | lazy => "    .setLazy(true)"

def AttributeCall.lines : AttributeCall → List String
  | column name => ["    .setColumnName(" ++ quote name ++ ")"]
  | getter name => ["    .setGetterName(" ++ quote name ++ ")"]
  | setter name => ["    .setSetterName(" ++ quote name ++ ")"]
  | flag f => [f.line]
  | cardinality c => ["    .setCardinality(Cardinality." ++ c.text ++ ")"]
  | reference expression => ["    .setReferencedType(() => " ++ expression ++ ")"]
  | state implementation field => stateAccess implementation field

/-- The line of a call in a metadata class. -/
def TypeCall.line (className : String) : TypeCall → String
  | table name => "    .setTableName(" ++ quote name ++ ")"
  | readOnly => "    .setReadOnly(true)"
  | stateless => "    .setStateless(true)"
  | immutable => "    .setImmutable(true)"
  | factory implementation => "    .setFactory(() => new " ++ implementation ++ "())"
  | addAttribute model => "    .addAttribute(" ++ className ++ "." ++ model.fieldName ++ ")"
  | addListener model =>
    "    .addListener(" ++ quote model.event.text ++ ", (entity) => entity." ++ model.methodName ++
      "())"

namespace MetadataArtifact

variable (m : MetadataArtifact)

/-- The lines that define an attribute. -/
def attributeDefinition (a : AttributeModel) : List String :=
  let generics := "<" ++ m.entityTypeName ++ ", " ++ a.valueType ++ ">"
  ["  static readonly " ++ a.fieldName ++ ": Attribute" ++ generics ++ " = new AttributeBuilder" ++
    generics ++ "(" ++ quote a.name ++ ", " ++ quote a.declaredTypeName ++ ")"] ++
  (m.attributeCalls a).flatMap AttributeCall.lines ++ ["    ." ++ a.builderMethod.text ++ "();", ""]

/-- The lines that define the type. -/
def typeDefinition : List String :=
  ["  static readonly TYPE: Type<" ++ m.entityTypeName ++ "> = new TypeBuilder<" ++
    m.entityTypeName ++ ">(" ++ quote m.entity ++ ")"] ++
  m.typeCalls.map (TypeCall.line m.className) ++ ["    .build();", ""]

/-- The lines that define the attributes and the type. -/
def definitions : List String :=
  m.attributes.flatMap m.attributeDefinition ++ m.typeDefinition

end MetadataArtifact

section Printed

theorem flatMap_callIf (condition : Bool) (f : AttributeFlag) :
    (callIf condition (.flag f)).flatMap AttributeCall.lines = lineIf condition f.line := by
  cases condition <;> rfl

theorem map_callIf {α : Type} (line : α → String) (condition : Bool) (call : α) :
    (callIf condition call).map line = lineIf condition (line call) := by
  cases condition <;> rfl

theorem flatMap_toList_map {α : Type} (make : α → AttributeCall) (line : α → String)
    (h : ∀ x, (make x).lines = [line x]) (x? : Option α) :
    (x?.toList.map make).flatMap AttributeCall.lines = x?.toList.map line := by
  cases x? with
  | none => rfl
  | some x => exact (List.flatMap_singleton _ _).trans (h x)

variable (m : MetadataArtifact)

theorem attributeDefinition_eq (a : AttributeModel) :
    m.attributeDefinition a = (m.attributeMember a).lines := by
  unfold MetadataArtifact.attributeDefinition MetadataArtifact.attributeMember
    MetadataArtifact.attributeCalls attributeLines
  simp only [List.flatMap_append, flatMap_callIf, List.append_assoc]
  rw [flatMap_toList_map .setter _ fun _ => rfl, flatMap_toList_map .cardinality _ fun _ => rfl,
    flatMap_toList_map .reference _ fun _ => rfl]
  cases given? a.stateField <;> cases given? m.implementationClass <;> rfl

theorem typeDefinition_eq : m.typeDefinition = m.typeMember.lines := by
  unfold MetadataArtifact.typeDefinition MetadataArtifact.typeMember MetadataArtifact.typeCalls
    MetadataArtifact.settingCalls
  simp only [List.map_append, map_callIf, List.map_map]
  simp only [List.append_assoc]
  rfl

/-- The text of a class has its definitions in one piece. -/
theorem hasLines_definitions : HasLines (Rendering.metadata m) m.definitions := by
  have hstatics : m.statics.flatMap (·.lines) = m.definitions ++ m.instanceMember.lines := by
    rw [m.flatMap_lines_statics, MetadataArtifact.definitions, typeDefinition_eq,
      List.append_assoc]
    exact congrArg (· ++ _) (List.flatMap_congr fun a _ => (attributeDefinition_eq m a).symm)
  refine ⟨_, Rendering.metadata_eq m, ?_⟩
  rw [hstatics]
  refine List.infix_append_of_infix_left (List.infix_append_of_infix_right ?_)
  exact (List.prefix_append _ _).isInfix

end Printed

/-! ## Loaded attributes -/

section Attributes

variable (m : MetadataArtifact) (evaluate : String → Except String String)

/-- The value of a flag. -/
def AttributeDraft.flag (d : AttributeDraft) : AttributeFlag → Bool
  | .key => d.isKey
  | .generated => d.isGenerated
  | .version => d.isVersion
  | .nullable => d.isNullable
  | .readOnly => d.isReadOnly
  | .lazy => d.isLazy

/-- A flag is set if the condition holds, or if it was set before. -/
theorem foldl_callIf (d : AttributeDraft) (condition : Bool) (f : AttributeFlag) :
    (callIf condition (.flag f)).foldl (AttributeDraft.perform evaluate) d =
      d.withFlag (condition || d.flag f) f := by
  cases condition with
  | true => rfl
  | false => cases f <;> rfl

theorem foldl_setter (d : AttributeDraft) (name? : Option String) :
    (name?.toList.map AttributeCall.setter).foldl (AttributeDraft.perform evaluate) d =
      { d with setterName := name?.or d.setterName } := by
  cases name? <;> rfl

theorem foldl_cardinality (d : AttributeDraft) (c? : Option Cardinality) :
    (c?.toList.map AttributeCall.cardinality).foldl (AttributeDraft.perform evaluate) d =
      { d with cardinality := c?.or d.cardinality } := by
  cases c? <;> rfl

theorem foldl_reference (d : AttributeDraft) (x? : Option String) :
    (x?.toList.map AttributeCall.reference).foldl (AttributeDraft.perform evaluate) d =
      { d with supplier := (x?.map fun x => ⟨x, evaluate x⟩).or d.supplier } := by
  cases x? <;> rfl

/-- An attribute is loaded as what its model says; what is empty counts as absent. -/
theorem loadAttribute_eq (a : AttributeModel) :
    m.loadAttribute evaluate a =
      { name := a.name
        columnName := a.columnName
        typeName := a.declaredTypeName
        shape := a.builderMethod.shape
        getterName := a.getterName
        setterName := given? a.setterName
        isKey := a.isKey
        isGenerated := a.isGenerated
        isVersion := a.isVersion
        isNullable := a.isNullable
        isReadOnly := a.isReadOnly
        isLazy := a.isLazy
        cardinality := a.cardinality
        hasState := (given? a.stateField).isSome && (given? m.implementationClass).isSome
        supplier := (given? a.referencedType).map fun x => ⟨x, evaluate x⟩
        supplied := none } := by
  unfold MetadataArtifact.loadAttribute MetadataArtifact.attributeCalls
  simp only [List.foldl_append, foldl_callIf, foldl_setter, foldl_cardinality, foldl_reference,
    List.foldl_cons, List.foldl_nil, AttributeDraft.perform, AttributeDraft.withFlag,
    AttributeDraft.flag, AttributeDraft.start, Bool.or_false, Option.or_none]
  cases given? a.stateField <;> cases given? m.implementationClass <;> rfl

end Attributes

/-! ## Loaded types -/

section Types

variable (read : AttributeModel → Attribute)

/-- The draft of a class without its attributes and listeners. -/
def bareDraft (m : MetadataArtifact) : TypeDraft String String :=
  ⟨⟨m.entity, m.tableName, m.isReadOnly, m.isStateless, m.isImmutable,
    given? m.implementationClass, [], []⟩⟩

theorem foldlM_settingCalls (m : MetadataArtifact) :
    m.settingCalls.foldlM (TypeDraft.perform read) (.start m.entity) = .ok (bareDraft m) := by
  unfold MetadataArtifact.settingCalls bareDraft
  cases m.isReadOnly <;> cases m.isStateless <;> cases m.isImmutable <;>
    cases given? m.implementationClass <;> rfl

/-- An attribute of a new name is added. -/
theorem perform_addAttribute {d : TypeDraft String String} {a : AttributeModel}
    (h : (read a).name ∉ d.attributes.map (·.name)) :
    d.perform read (.addAttribute a) = .ok { d with attributes := d.attributes ++ [read a] } := by
  have hnew : d.attributes.any (·.name == (read a).name) = false := by
    refine List.any_eq_false.2 fun other hother hname => h ?_
    rw [← eq_of_beq hname]
    exact List.mem_map_of_mem hother
  show d.addAttribute (read a) = _
  rw [TypeDraft.addAttribute, hnew]
  rfl

/-- Attributes are added as long as they have distinct names. -/
theorem foldlM_addAttribute (d : TypeDraft String String) (as : List AttributeModel)
    (h : (d.attributes.map (·.name) ++ as.map fun a => (read a).name).Nodup) :
    (as.map TypeCall.addAttribute).foldlM (TypeDraft.perform read) d =
      .ok { d with attributes := d.attributes ++ as.map read } := by
  induction as generalizing d with
  | nil =>
    rw [List.map_nil, List.map_nil, List.append_nil]
    rfl
  | cons a as ih =>
    rw [List.map_cons, List.append_cons] at h
    have hnew : (read a).name ∉ d.attributes.map (·.name) :=
      List.disjoint_singleton.1 (List.disjoint_of_nodup_append (List.Nodup.of_append_left h))
    have hrest : (({ d with attributes := d.attributes ++ [read a] } :
        TypeDraft String String).attributes.map (·.name) ++
          as.map fun a => (read a).name).Nodup := by
      rw [List.map_append]
      exact h
    rw [List.map_cons, List.foldlM_cons, perform_addAttribute read hnew]
    refine (ih _ hrest).trans ?_
    simp only [List.map_cons, List.append_assoc, List.singleton_append]

theorem foldlM_addListener (d : TypeDraft String String) (ls : List ListenerModel) :
    (ls.map TypeCall.addListener).foldlM (TypeDraft.perform read) d =
      .ok { d with listeners := d.listeners ++ ls.map fun l => ⟨l.event, l.methodName⟩ } := by
  induction ls generalizing d with
  | nil =>
    rw [List.map_nil, List.map_nil, List.append_nil]
    rfl
  | cons l ls ih =>
    rw [List.map_cons, List.foldlM_cons]
    show (ls.map TypeCall.addListener).foldlM (TypeDraft.perform read)
      (d.addListener l.event l.methodName) = _
    rw [ih, TypeDraft.addListener, List.map_cons, List.append_assoc]
    rfl

end Types

/-- A class whose attributes have distinct names is loaded as what it says. -/
theorem load_eq {m : MetadataArtifact} (h : (m.attributes.map (·.name)).Nodup)
    (evaluate : String → Except String String) :
    m.load evaluate = .ok
      { name := m.entity
        tableName := m.tableName
        isReadOnly := m.isReadOnly
        isStateless := m.isStateless
        isImmutable := m.isImmutable
        factory := given? m.implementationClass
        attributes := m.attributes.map (m.loadAttribute evaluate)
        listeners := m.listeners.map fun l => ⟨l.event, l.methodName⟩ } := by
  have hdistinct : ((bareDraft m).attributes.map (·.name) ++
      m.attributes.map fun a => (m.loadAttribute evaluate a).name).Nodup := by
    simp only [loadAttribute_eq]
    exact h
  unfold MetadataArtifact.load MetadataArtifact.typeCalls
  rw [List.foldlM_append, List.foldlM_append, foldlM_settingCalls]
  show Except.map _ (Except.bind ((m.attributes.map TypeCall.addAttribute).foldlM _ _) _) = _
  rw [foldlM_addAttribute _ _ _ hdistinct]
  show Except.map _ ((m.listeners.map TypeCall.addListener).foldlM _ _) = _
  rw [foldlM_addListener]
  rfl

/-! ## Derived classes -/

def ContainerShape.attributeShape : ContainerShape → AttributeShape
  | list => .list
  | set => .set
  | collection => .collection
  | map => .map

/-- The shape of values of the type: that of the container, or else a single value. -/
def TypeRef.shape (t : TypeRef) : AttributeShape :=
  (t.container.filter fun _ => t.kind == .container).elim .value ContainerShape.attributeShape

theorem shape_builderMethod (t : TypeRef) : t.builderMethod.shape = t.shape := by
  unfold TypeRef.builderMethod TypeRef.shape
  by_cases hkind : t.kind = .container
  · rw [if_neg (not_not_intro hkind), hkind]
    cases t.container with
    | none => rfl
    | some shape => cases shape <;> rfl
  · have hnone : (t.container.filter fun _ => t.kind == .container) = none := by
      rw [beq_false_of_ne hkind]
      cases t.container <;> rfl
    rw [if_pos hkind, hnone]
    rfl

namespace Derivation

variable (g : Graph) (evaluate : String → Except String String) (e : Entity)

/-- The attribute of a property at run time. -/
def attributeOf (p : Property) : Attribute where
  name := p.name
  columnName := p.columnName
  typeName := p.declaredTypeName
  shape := p.type.shape
  getterName := if p.memberKind = .method then p.memberName else p.getterName e.nameStyle
  setterName := if isReadOnlyAttribute e p then none else some (p.setterName e.nameStyle)
  isKey := p.isKey
  isGenerated := p.isGenerated
  isVersion := p.isVersion
  isNullable := p.isNullable
  isReadOnly := isReadOnlyAttribute e p
  isLazy := p.isLazy
  cardinality := p.cardinality
  hasState := e.tracksState
  supplier := (g.edge? e.qualifiedName p.name).map fun edge =>
    ⟨edge.target.metadataClass ++ ".TYPE", evaluate (edge.target.metadataClass ++ ".TYPE")⟩
  supplied := none

/-- The type of a node at run time. -/
def entityType : EntityType String String where
  name := e.qualifiedName
  tableName := e.tableName
  isReadOnly := e.isReadOnly
  isStateless := e.isStateless
  isImmutable := e.isImmutable
  factory := if e.hasImplementation then some e.implementationClass else none
  attributes := e.persistentProperties.map (attributeOf g evaluate e)
  listeners := e.listeners.map fun l => ⟨l.event, l.methodName⟩

variable {e}

theorem given?_referencedType (p : Property) :
    given? (attributeModel g e p).referencedType =
      (g.edge? e.qualifiedName p.name).map (·.target.metadataClass ++ ".TYPE") := by
  show given? ((g.edge? e.qualifiedName p.name).map (·.target.metadataClass ++ ".TYPE")) = _
  cases g.edge? e.qualifiedName p.name with
  | none => rfl
  | some edge =>
    refine given?_some fun h => ?_
    have hlength := congrArg String.length h
    rw [String.length_append, String.length_empty] at hlength
    have htype : ".TYPE".length = 5 := rfl
    omega

/-- A derived attribute is loaded as that of its property. -/
theorem loadAttribute_attributeModel (o : DeriveOptions) (hclass : e.implementationClass ≠ "")
    {p : Property} (hp : p.IsNamed) :
    (metadata g o e).loadAttribute evaluate (attributeModel g e p) = attributeOf g evaluate e p := by
  have hsetter : given? (attributeModel g e p).setterName =
      if isReadOnlyAttribute e p then none else some (p.setterName e.nameStyle) := by
    show given? (if isReadOnlyAttribute e p then none else some (p.setterName e.nameStyle)) = _
    cases isReadOnlyAttribute e p with
    | true => rfl
    | false => exact given?_some hp.setterName_ne_empty
  have hfield : given? (attributeModel g e p).stateField =
      if e.tracksState then some p.stateField else none :=
    given?_ite (stateField_ne_empty p)
  have himplementation : given? (metadata g o e).implementationClass =
      if e.hasImplementation then some e.implementationClass else none :=
    given?_ite hclass
  have hstate : ((given? (attributeModel g e p).stateField).isSome &&
      (given? (metadata g o e).implementationClass).isSome) = e.tracksState := by
    -- only an implementation tracks state
    rw [hfield, himplementation, Entity.tracksState]
    cases e.hasImplementation <;> cases e.isStateless <;> rfl
  rw [loadAttribute_eq, hsetter, hstate, given?_referencedType, Option.map_map, attributeOf,
    ← shape_builderMethod]
  rfl

/-- The metadata class of a node is loaded as the type of the node. -/
theorem load_metadata (o : DeriveOptions) (hclass : e.implementationClass ≠ "")
    (hnamed : ∀ p ∈ e.properties, p.IsNamed)
    (hdistinct : (e.properties.map Property.name).Nodup) :
    (metadata g o e).load evaluate = .ok (entityType g evaluate e) := by
  have hnames : ((metadata g o e).attributes.map (·.name)).Nodup := by
    show ((e.persistentProperties.map (attributeModel g e)).map _).Nodup
    rw [List.map_map]
    exact hdistinct.sublist (List.filter_sublist.map _)
  have hattributes : (metadata g o e).attributes.map ((metadata g o e).loadAttribute evaluate) =
      e.persistentProperties.map (attributeOf g evaluate e) := by
    show (e.persistentProperties.map (attributeModel g e)).map _ = _
    rw [List.map_map]
    refine List.map_congr_left fun p hp => ?_
    exact loadAttribute_attributeModel g evaluate o hclass (hnamed p (List.mem_of_mem_filter hp))
  have hlisteners : (metadata g o e).listeners.map
      (fun l => (⟨l.event, l.methodName⟩ : EventListener String)) =
        e.listeners.map fun l => ⟨l.event, l.methodName⟩ := by
    show (e.listeners.map fun l => (⟨l.event, l.methodName⟩ : ListenerModel)).map _ = _
    rw [List.map_map]
    rfl
  have himplementation : given? (metadata g o e).implementationClass =
      if e.hasImplementation then some e.implementationClass else none :=
    given?_ite hclass
  rw [load_eq hnames, hattributes, hlisteners, himplementation]
  rfl

end Derivation

end Metamodel
