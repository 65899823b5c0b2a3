import Mathlib.Data.List.Nodup
import Metamodel.Artifact.Rendering

/-!
# Members of generated classes

The text of a generated class is its heading and then one member behind the other, each declared in
its first line (`metadata_eq`, `implementation_eq`). A property that is read and written through a pair
of accessors is one member.
-/

namespace Metamodel

/-- A member of a generated class, with the lines that stand for it. -/
structure ClassMember where
  name : String
  lines : List String

namespace ClassMember

/-- The first line declares the name, behind keywords and before its type, value or parameters. -/
def DeclaredBy (m : ClassMember) (keywords : String) : Prop :=
  ∃ mark ∈ [": ", "!: ", " = ", "("], ∃ rest,
    m.lines.head? = some ("  " ++ keywords ++ m.name ++ mark ++ rest)

theorem declaredBy_of {m : ClassMember} {keywords line : String} (name mark rest : String)
    (hmark : mark ∈ [": ", "!: ", " = ", "("]) (hname : m.name = name)
    (hline : m.lines.head? = some line)
    (h : line.toList = "  ".toList ++ (keywords.toList ++ (name.toList ++
      (mark.toList ++ rest.toList)))) : m.DeclaredBy keywords := by
  refine ⟨mark, hmark, rest, hline.trans (congrArg some ?_)⟩
  apply String.toList_inj.1
  rw [hname]
  simp only [String.toList_append, List.append_assoc]
  exact h

end ClassMember

open Rendering

open Text (quote)

/-! ## Metadata classes -/

namespace MetadataArtifact

variable (m : MetadataArtifact)

/-- The static member for an attribute. -/
def attributeMember (a : AttributeModel) : ClassMember :=
  ⟨a.fieldName, attributeLines m a ++ [""]⟩

/-- The static member that holds the type. -/
def typeMember : ClassMember where
  name := "TYPE"
  lines :=
    ["  static readonly TYPE: Type<" ++ m.entityTypeName ++ "> = new TypeBuilder<" ++
        m.entityTypeName ++ ">(" ++ quote m.entity ++ ")",
      "    .setTableName(" ++ quote m.tableName ++ ")"] ++
    lineIf m.isReadOnly "    .setReadOnly(true)" ++
    lineIf m.isStateless "    .setStateless(true)" ++
    lineIf m.isImmutable "    .setImmutable(true)" ++
    (given? m.implementationClass).toList.map (fun c =>
      "    .setFactory(() => new " ++ c ++ "())") ++
    m.attributes.map (fun a => "    .addAttribute(" ++ m.className ++ "." ++ a.fieldName ++ ")") ++
    m.listeners.map (fun l =>
      "    .addListener(" ++ quote l.event.text ++ ", (entity) => entity." ++ l.methodName ++
        "())") ++
    ["    .build();", ""]

/-- The static member that holds the only instance. -/
def instanceMember : ClassMember :=
  ⟨"INSTANCE", ["  static readonly INSTANCE = new " ++ m.className ++ "();", ""]⟩

def statics : List ClassMember :=
  m.attributes.map m.attributeMember ++ [m.typeMember, m.instanceMember]

def staticNames : List String :=
  m.statics.map (·.name)

theorem staticNames_eq :
    m.staticNames = m.attributes.map (·.fieldName) ++ ["TYPE", "INSTANCE"] := by
  unfold staticNames statics
  rw [List.map_append, List.map_map]
  rfl

theorem flatMap_lines_statics :
    m.statics.flatMap (·.lines) = m.attributes.flatMap (fun a => attributeLines m a ++ [""]) ++
      (m.typeMember.lines ++ m.instanceMember.lines) := by
  unfold statics
  rw [List.flatMap_append, List.flatMap_map]
  simp [attributeMember]

end MetadataArtifact

namespace Rendering

/-- The text of a metadata class, static member by static member. -/
theorem metadata_eq (m : MetadataArtifact) :
    metadata m = ofLines ([header] ++ m.imports.map importLine ++ [""] ++
      ["export class " ++ m.className ++ " \x7b"] ++ m.statics.flatMap (·.lines) ++
      ["  readonly type: Type<" ++ m.entityTypeName ++ "> = " ++ m.className ++ ".TYPE;", "",
        "  private constructor() \x7b\x7d", "\x7d"]) := by
  rw [m.flatMap_lines_statics]
  unfold metadata MetadataArtifact.typeMember MetadataArtifact.instanceMember
  simp only [List.append_assoc, String.append_assoc]
  rfl

end Rendering

/-- Every static member is declared under its name. -/
theorem MetadataArtifact.declaredBy_of_mem_statics {m : MetadataArtifact} {x : ClassMember}
    (hx : x ∈ m.statics) : x.DeclaredBy "static readonly " := by
  unfold statics at hx
  rw [List.mem_append, List.mem_pair, List.mem_map] at hx
  rcases hx with ⟨a, -, rfl⟩ | rfl | rfl
  · refine ClassMember.declaredBy_of a.fieldName ": " ("Attribute<" ++ m.entityTypeName ++ ", " ++
      a.valueType ++ "> = new AttributeBuilder<" ++ m.entityTypeName ++ ", " ++ a.valueType ++
      ">(" ++ quote a.name ++ ", " ++ quote a.declaredTypeName ++ ")") (by decide) rfl rfl ?_
    simp only [String.toList_append, List.append_assoc]
    rfl
  · refine ClassMember.declaredBy_of "TYPE" ": " ("Type<" ++ m.entityTypeName ++
      "> = new TypeBuilder<" ++ m.entityTypeName ++ ">(" ++ quote m.entity ++ ")") (by decide) rfl rfl ?_
    simp only [String.toList_append, List.append_assoc]
    rfl
  · refine ClassMember.declaredBy_of "INSTANCE" " = " ("new " ++ m.className ++ "();") (by decide)
      rfl rfl ?_
    simp only [String.toList_append, List.append_assoc]
    rfl

/-! ## Implementation classes -/

namespace AccessorModel

variable (a : AccessorModel)

/-- The field that tracks the state of the property. -/
def stateMember? : Option ClassMember :=
  (given? a.stateField).map fun s => ⟨s, ["  " ++ s ++ ": PropertyState = PropertyState.FETCH;"]⟩

/-- The field that holds the value of the property. -/
def backingMember? : Option ClassMember :=
  (given? a.backingField).map fun f => ⟨f, ["  private " ++ f ++ "!: " ++ a.valueType ++ ";"]⟩

/-- The property itself, over its field. -/
def propertyMember? : Option ClassMember :=
  if a.propertyAccessor then
    some ⟨a.property,
      ["  get " ++ a.property ++ "(): " ++ a.valueType ++ " \x7b",
        "    return " ++ a.readExpression ++ ";", "  \x7d", ""] ++
      if a.writable then
        ["  set " ++ a.property ++ "(value: " ++ a.valueType ++ ") \x7b"] ++ storeLines a ++
          ["  \x7d", ""]
      else []⟩
  else none

def getterMember? : Option ClassMember :=
  (given? a.getterName).map fun getter =>
    ⟨getter, ["  " ++ getter ++ "(): " ++ a.valueType ++ " \x7b",
      "    return " ++ a.readExpression ++ ";", "  \x7d", ""]⟩

def setterMember? : Option ClassMember :=
  (given? a.setterName).map fun setter =>
    ⟨setter, ["  " ++ setter ++ "(value: " ++ a.valueType ++ "): void \x7b"] ++ storeLines a ++
      ["  \x7d", ""]⟩

/-- The names of the methods that are generated for the property. -/
def methodNames : List String :=
  (given? a.getterName).toList ++ (given? a.setterName).toList

theorem accessorLines_eq :
    accessorLines a = (a.propertyMember?.toList ++ a.getterMember?.toList ++
      a.setterMember?.toList).flatMap (·.lines) := by
  unfold accessorLines propertyMember? getterMember? setterMember?
  rw [List.flatMap_append, List.flatMap_append]
  congr 1
  · congr 1
    · cases a.propertyAccessor <;> simp
    · cases given? a.getterName <;> simp
  · cases given? a.setterName <;> simp

end AccessorModel

namespace ImplementationArtifact

variable (i : ImplementationArtifact)

/-- The names of the methods that every implementation has. -/
def standardNames : List String :=
  ["equals", "hashCode", "toString"]

def equalsMember : ClassMember where
  name := "equals"
  lines :=
    ["  equals(other: unknown): boolean \x7b",
      "    if (other === this) return true;",
      "    if (!(other instanceof " ++ i.className ++ ")) return false;",
      if i.equalityExpressions.isEmpty then "    return false;"
      else "    return " ++ " && ".intercalate (i.equalityExpressions.map fun e =>
        "valueEquals(" ++ e ++ ", " ++ otherExpression e ++ ")") ++ ";",
      "  \x7d",
      ""]

def hashCodeMember : ClassMember where
  name := "hashCode"
  lines :=
    ["  hashCode(): number \x7b",
      "    return hashValues([" ++ ", ".intercalate i.equalityExpressions ++ "]);",
      "  \x7d",
      ""]

def toStringMember : ClassMember where
  name := "toString"
  lines :=
    ["  toString(): string \x7b",
      "    return describeEntity(" ++ quote i.baseName ++ ", [" ++
        ", ".intercalate (i.describedFields.map fun f => "[" ++ quote f.1 ++ ", " ++ f.2 ++ "]") ++
        "]);",
      "  \x7d"]

def fields : List ClassMember :=
  i.accessors.filterMap (·.stateMember?) ++ i.accessors.filterMap (·.backingMember?)

def methods : List ClassMember :=
  i.accessors.flatMap (fun a =>
    a.propertyMember?.toList ++ a.getterMember?.toList ++ a.setterMember?.toList) ++
  [i.equalsMember, i.hashCodeMember, i.toStringMember]

def memberNames : List String :=
  (i.fields ++ i.methods).map (·.name)

/-- No generated method has the name of a property other than its own. -/
def MethodsApart : Prop :=
  ∀ a ∈ i.accessors, a.property ∉ standardNames ∧
    ∀ b ∈ i.accessors, a.property ∈ b.methodNames → a.property = b.property

instance : Decidable i.MethodsApart :=
  inferInstanceAs (Decidable (∀ a ∈ i.accessors, a.property ∉ standardNames ∧
    ∀ b ∈ i.accessors, a.property ∈ b.methodNames → a.property = b.property))

end ImplementationArtifact

namespace Rendering

/-- Members of one line each make up as many lines. -/
theorem filterMap_line (name? : AccessorModel → Option String) (line : AccessorModel → String → String)
    (accessors : List AccessorModel) :
    accessors.filterMap (fun a => (name? a).map (line a)) =
      (accessors.filterMap fun a => (name? a).map fun s => (⟨s, [line a s]⟩ : ClassMember)).flatMap
        (·.lines) := by
  induction accessors with
  | nil => rfl
  | cons a accessors ih =>
    rw [List.filterMap_cons, List.filterMap_cons, ih]
    cases name? a <;> rfl

/-- The text of an implementation class, member by member. -/
theorem implementation_eq (i : ImplementationArtifact) :
    implementation i = ofLines ([header] ++ i.imports.map importLine ++ [""] ++
      ["export class " ++ i.className ++ " " ++ i.relation.text ++ " " ++ i.baseName ++ " \x7b"] ++
      i.fields.flatMap (·.lines) ++ [""] ++ i.methods.flatMap (·.lines) ++ ["\x7d"]) := by
  have hstates : i.accessors.filterMap (fun a => (given? a.stateField).map fun s =>
      "  " ++ s ++ ": PropertyState = PropertyState.FETCH;") =
      (i.accessors.filterMap (·.stateMember?)).flatMap (·.lines) :=
    filterMap_line (fun a => given? a.stateField)
      (fun _ s => "  " ++ s ++ ": PropertyState = PropertyState.FETCH;") i.accessors
  have hbackings : i.accessors.filterMap (fun a => (given? a.backingField).map fun f =>
      "  private " ++ f ++ "!: " ++ a.valueType ++ ";") =
      (i.accessors.filterMap (·.backingMember?)).flatMap (·.lines) :=
    filterMap_line (fun a => given? a.backingField)
      (fun a f => "  private " ++ f ++ "!: " ++ a.valueType ++ ";") i.accessors
  have haccessors : i.accessors.flatMap accessorLines =
      (i.accessors.flatMap fun a => a.propertyMember?.toList ++ a.getterMember?.toList ++
        a.setterMember?.toList).flatMap (·.lines) := by
    rw [List.flatMap_assoc]
    exact List.flatMap_congr fun a _ => a.accessorLines_eq
  unfold implementation ImplementationArtifact.fields ImplementationArtifact.methods
  rw [hstates, hbackings, haccessors, List.flatMap_append, List.flatMap_append]
  simp only [List.append_assoc]
  rfl

end Rendering

section Declared

variable {i : ImplementationArtifact} {a : AccessorModel} {x : ClassMember}

theorem AccessorModel.declaredBy_of_field (hx : a.stateMember? = some x ∨ a.backingMember? = some x) :
    x.DeclaredBy "" ∨ x.DeclaredBy "private " := by
  unfold stateMember? backingMember? at hx
  simp only [Option.map_eq_some_iff] at hx
  rcases hx with ⟨s, -, rfl⟩ | ⟨f, -, rfl⟩
  · refine Or.inl (ClassMember.declaredBy_of s ": " "PropertyState = PropertyState.FETCH;"
      (by decide) rfl rfl ?_)
    simp only [String.toList_append, List.append_assoc]
    rfl
  · refine Or.inr (ClassMember.declaredBy_of f "!: " (a.valueType ++ ";") (by decide) rfl rfl ?_)
    simp only [String.toList_append, List.append_assoc]
    rfl

theorem AccessorModel.declaredBy_of_method (hx : a.propertyMember? = some x ∨
    a.getterMember? = some x ∨ a.setterMember? = some x) :
    x.DeclaredBy "" ∨ x.DeclaredBy "get " := by
  unfold propertyMember? getterMember? setterMember? at hx
  simp only [Option.map_eq_some_iff, Option.ite_none_right_eq_some] at hx
  rcases hx with ⟨-, hx⟩ | ⟨getter, -, rfl⟩ | ⟨setter, -, rfl⟩
  · cases hx
    refine Or.inr (ClassMember.declaredBy_of a.property "(" ("): " ++ a.valueType ++ " \x7b")
      (by decide) rfl rfl ?_)
    simp only [String.toList_append, List.append_assoc]
    rfl
  · refine Or.inl (ClassMember.declaredBy_of getter "(" ("): " ++ a.valueType ++ " \x7b")
      (by decide) rfl rfl ?_)
    simp only [String.toList_append, List.append_assoc]
    rfl
  · refine Or.inl (ClassMember.declaredBy_of setter "(" ("value: " ++ a.valueType ++ "): void \x7b")
      (by decide) rfl rfl ?_)
    simp only [String.toList_append, List.append_assoc]
    rfl

/-- Every member is declared under its name. -/
theorem ImplementationArtifact.declaredBy_of_mem (hx : x ∈ i.fields ++ i.methods) :
    ∃ keywords ∈ ["", "private ", "get "], x.DeclaredBy keywords := by
  unfold fields methods at hx
  simp only [List.mem_append, List.mem_filterMap, List.mem_flatMap, Option.mem_toList,
    List.mem_cons, List.not_mem_nil, or_false] at hx
  rcases hx with (⟨a, -, hx⟩ | ⟨a, -, hx⟩) | ⟨a, -, hx⟩ | rfl | rfl | rfl
  · rcases AccessorModel.declaredBy_of_field (Or.inl hx) with h | h
    · exact ⟨"", by decide, h⟩
    · exact ⟨"private ", by decide, h⟩
  · rcases AccessorModel.declaredBy_of_field (Or.inr hx) with h | h
    · exact ⟨"", by decide, h⟩
    · exact ⟨"private ", by decide, h⟩
  · rcases AccessorModel.declaredBy_of_method (or_assoc.1 hx) with h | h
    · exact ⟨"", by decide, h⟩
    · exact ⟨"get ", by decide, h⟩
  · exact ⟨"", by decide, "(", by decide, "other: unknown): boolean \x7b", rfl⟩
  · exact ⟨"", by decide, "(", by decide, "): number \x7b", rfl⟩
  · exact ⟨"", by decide, "(", by decide, "): string \x7b", rfl⟩

end Declared

end Metamodel
