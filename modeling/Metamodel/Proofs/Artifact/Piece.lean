import Metamodel.Artifact.Derivation
import Metamodel.Artifact.Rendering
import Metamodel.Proofs.Artifact.File

/-!
# Names in generated texts

Behind its import lines, the text of a generated file is a list of lines, each of which consists of
pieces: names of types, names of values, and the text in between, which has keywords, members,
parameters, literals and types of the language only. `implementationBody`, `metadataBody` and
`registryBody` take the three kinds of files apart in this way (`isWritten_implementation`,
`isWritten_metadata`, `isWritten_registry`).
-/

namespace Metamodel

/-- A piece of a line: text, or a name that is declared outside of the class, used as a type or as a
value. -/
inductive Piece where
  | text (s : String)
  | type (name : String)
  | value (name : String)
  deriving DecidableEq

namespace Piece

def render : Piece → String
  | text s | type s | value s => s

/-- The line that consists of the pieces. -/
def line (ps : List Piece) : String :=
  String.join (ps.map render)

/-- Lines without names. -/
def texts (lines : List String) : List (List Piece) :=
  lines.map fun l => [text l]

@[simp] theorem line_nil : line [] = "" := rfl

@[simp] theorem line_cons (p : Piece) (ps : List Piece) : line (p :: ps) = p.render ++ line ps := by
  unfold line
  rw [List.map_cons, String.join_cons]

@[simp] theorem line_append (ps qs : List Piece) : line (ps ++ qs) = line ps ++ line qs := by
  unfold line
  rw [List.map_append, String.join_append]

@[simp] theorem render_text (s : String) : (text s).render = s := rfl

@[simp] theorem render_type (s : String) : (type s).render = s := rfl

@[simp] theorem render_value (s : String) : (value s).render = s := rfl

@[simp] theorem map_line_texts (lines : List String) : (texts lines).map line = lines := by
  unfold texts
  rw [List.map_map]
  simp [Function.comp_def]

/-- Groups of pieces with a text between each two. -/
theorem line_intercalate (sep : String) (groups : List (List Piece)) :
    line ([text sep].intercalate groups) = sep.intercalate (groups.map line) := by
  induction groups with
  | nil => rfl
  | cons ps groups ih =>
    cases groups with
    | nil => simp
    | cons qs groups =>
      rw [List.intercalate_cons_cons, line_append, line_append, ih, line_cons, line_nil, render_text,
        String.append_empty]
      exact (String.intercalate_cons_of_ne_nil (List.cons_ne_nil _ _)).symm

end Piece

/-- The text of the file is a header, its import lines, an empty line and the lines of the body. -/
def Artifact.IsWritten (a : Artifact) (body : List (List Piece)) : Prop :=
  a.render = Rendering.ofLines ([Rendering.header] ++ a.imports.map Rendering.importLine ++ [""] ++
    body.map Piece.line)

namespace Derivation

open Piece Rendering

open Text (quote)

/-- The type expression of a property's values. -/
def valueTypePieces (owner : String) (p : Property) : List Piece :=
  match p.memberKind with
  | .method => [text "ReturnType<", type owner, text ("['" ++ p.memberName ++ "']>")]
  | _ => [type owner, text ("['" ++ p.name ++ "']")]

@[simp] theorem line_valueTypePieces (owner : String) (p : Property) :
    line (valueTypePieces owner p) = valueType owner p := by
  unfold valueTypePieces valueType
  cases p.memberKind <;> simp [String.append_assoc]

/-! ## Metadata -/

section Metadata

variable (g : Graph) (e : Entity) (p : Property)

/-- The class that the metadata makes instances of. -/
def factoryClass? : Option String :=
  given? (if e.hasImplementation then some e.implementationClass else none)

/-- The type arguments of a property's attribute. -/
def attributeArguments : List Piece :=
  [text "<", type e.simpleName, text ", "] ++ valueTypePieces e.simpleName p ++ [text ">"]

/-- The line that declares a property's attribute. -/
def attributeDeclaration : List Piece :=
  [text ("  static readonly " ++ Naming.upperUnderscore p.name ++ ": "), type "Attribute"] ++
    attributeArguments e p ++ [text " = new ", value "AttributeBuilder"] ++ attributeArguments e p ++
    [text ("(" ++ quote p.name ++ ", " ++ quote p.declaredTypeName ++ ")")]

/-- The lines that set what is written without names. -/
def attributeSettings : List String :=
  let a := attributeModel g e p
  ["    .setColumnName(" ++ quote a.columnName ++ ")",
    "    .setGetterName(" ++ quote a.getterName ++ ")"] ++
  (given? a.setterName).toList.map (fun s => "    .setSetterName(" ++ quote s ++ ")") ++
  lineIf a.isKey "    .setKey(true)" ++
  lineIf a.isGenerated "    .setGenerated(true)" ++
  lineIf a.isVersion "    .setVersion(true)" ++
  lineIf a.isNullable "    .setNullable(true)" ++
  lineIf a.isReadOnly "    .setReadOnly(true)" ++
  lineIf a.isLazy "    .setLazy(true)"

/-- The line of a cardinality. -/
def cardinalityPieces (c : Cardinality) : List Piece :=
  [text "    .setCardinality(", value "Cardinality", text ("." ++ c.text ++ ")")]

/-- The line of a relationship. -/
def referencePieces (edge : Edge) : List Piece :=
  [text "    .setReferencedType(() => ", value edge.target.metadataClass, text ".TYPE)"]

/-- The lines that give an attribute access to the state field of an implementation. -/
def stateAccessPieces (implementation field : String) : List (List Piece) :=
  [[text "    .setPropertyState(\x7b"],
    [text "      get: (entity) => (entity instanceof ", value implementation,
      text (" ? entity." ++ field ++ " : undefined),")],
    [text "      set: (entity, state) => \x7b"],
    [text "        if (entity instanceof ", value implementation,
      text (") entity." ++ field ++ " = state;")],
    [text "      \x7d,"],
    [text "    \x7d)"]]

/-- The lines of a property's attribute. -/
def attributePieces : List (List Piece) :=
  [attributeDeclaration e p] ++ texts (attributeSettings g e p) ++
  p.cardinality.toList.map cardinalityPieces ++
  (g.edge? e.qualifiedName p.name).toList.map referencePieces ++
  (match given? (attributeModel g e p).stateField, factoryClass? e with
    | some field, some implementation => stateAccessPieces implementation field
    | _, _ => []) ++
  texts ["    ." ++ p.type.builderMethod.text ++ "();"]

/-- The type argument of what belongs to the type as a whole. -/
def typeArgument : List Piece :=
  [text "<", type e.simpleName, text ">"]

/-- The line that declares the type of the metadata. -/
def typeDeclaration : List Piece :=
  [text "  static readonly TYPE: ", type "Type"] ++ typeArgument e ++ [text " = new ",
    value "TypeBuilder"] ++ typeArgument e ++ [text ("(" ++ quote e.qualifiedName ++ ")")]

/-- The lines of a metadata class. -/
def metadataBody : List (List Piece) :=
  texts ["export class " ++ e.metadataClass ++ " \x7b"] ++
  e.persistentProperties.flatMap (fun p => attributePieces g e p ++ texts [""]) ++
  [typeDeclaration e] ++
  texts (["    .setTableName(" ++ quote e.tableName ++ ")"] ++
    lineIf e.isReadOnly "    .setReadOnly(true)" ++
    lineIf e.isStateless "    .setStateless(true)" ++
    lineIf e.isImmutable "    .setImmutable(true)") ++
  (factoryClass? e).toList.map (fun c =>
    [text "    .setFactory(() => new ", value c, text "())"]) ++
  e.persistentProperties.map (fun p => [text "    .addAttribute(", value e.metadataClass,
    text ("." ++ Naming.upperUnderscore p.name ++ ")")]) ++
  texts (e.listeners.map fun l =>
    "    .addListener(" ++ quote l.event.text ++ ", (entity) => entity." ++ l.methodName ++ "())") ++
  texts ["    .build();", ""] ++
  [[text "  static readonly INSTANCE = new ", value e.metadataClass, text "();"]] ++
  texts [""] ++
  [[text "  readonly type: ", type "Type"] ++ typeArgument e ++
    [text " = ", value e.metadataClass, text ".TYPE;"]] ++
  texts ["", "  private constructor() \x7b\x7d", "\x7d"]

theorem line_attributeDeclaration : line (attributeDeclaration e p) =
    let generics := "<" ++ e.simpleName ++ ", " ++ valueType e.simpleName p ++ ">"
    "  static readonly " ++ Naming.upperUnderscore p.name ++ ": Attribute" ++ generics ++
      " = new AttributeBuilder" ++ generics ++ "(" ++ quote p.name ++ ", " ++
      quote p.declaredTypeName ++ ")" := by
  have htype : ": Attribute" = ": " ++ "Attribute" := by rfl
  have hbuilder : " = new AttributeBuilder" = " = new " ++ "AttributeBuilder" := by rfl
  simp [attributeDeclaration, attributeArguments, String.append_assoc, htype, hbuilder,
    -String.reduceAppend]

theorem line_cardinalityPieces (c : Cardinality) :
    line (cardinalityPieces c) = "    .setCardinality(Cardinality." ++ c.text ++ ")" := by
  have hname : "    .setCardinality(Cardinality." =
      "    .setCardinality(" ++ ("Cardinality" ++ ".") := by rfl
  simp [cardinalityPieces, String.append_assoc, hname, -String.reduceAppend]

theorem line_referencePieces (edge : Edge) : line (referencePieces edge) =
    "    .setReferencedType(() => " ++ (edge.target.metadataClass ++ ".TYPE") ++ ")" := by
  simp [referencePieces, String.append_assoc]

theorem map_line_stateAccessPieces (implementation field : String) :
    (stateAccessPieces implementation field).map line = stateAccess implementation field := by
  simp [stateAccessPieces, stateAccess, String.append_assoc]

theorem map_line_attributePieces (o : DeriveOptions) :
    (attributePieces g e p).map line = attributeLines (metadata g o e) (attributeModel g e p) := by
  have hreference : (given? (attributeModel g e p).referencedType).toList =
      (g.edge? e.qualifiedName p.name).toList.map (·.target.metadataClass ++ ".TYPE") := by
    unfold attributeModel given?
    cases g.edge? e.qualifiedName p.name with
    | none => rfl
    | some edge => simp
  have hstate : (match given? (attributeModel g e p).stateField, factoryClass? e with
      | some field, some implementation => stateAccessPieces implementation field
      | _, _ => []).map line =
      match given? (attributeModel g e p).stateField, factoryClass? e with
      | some field, some implementation => stateAccess implementation field
      | _, _ => [] := by
    split
    · exact map_line_stateAccessPieces _ _
    · rfl
  unfold attributePieces attributeLines
  simp only [List.map_append, map_line_texts, hstate, List.map_map, Function.comp_def, List.map_cons,
    List.map_nil, line_attributeDeclaration, line_cardinalityPieces, line_referencePieces, hreference]
  simp only [attributeSettings, List.append_assoc, List.cons_append, List.nil_append]
  rfl

theorem line_typeArgument : line (typeArgument e) = "<" ++ e.simpleName ++ ">" := by
  simp [typeArgument, String.append_assoc]

theorem line_typeDeclaration : line (typeDeclaration e) =
    let typeArg := "<" ++ e.simpleName ++ ">"
    "  static readonly TYPE: Type" ++ typeArg ++ " = new TypeBuilder" ++ typeArg ++ "(" ++
      quote e.qualifiedName ++ ")" := by
  have htype : "  static readonly TYPE: Type" = "  static readonly TYPE: " ++ "Type" := by rfl
  have hbuilder : " = new TypeBuilder" = " = new " ++ "TypeBuilder" := by rfl
  simp [typeDeclaration, line_typeArgument, String.append_assoc, htype, hbuilder,
    -String.reduceAppend]

theorem isWritten_metadata (o : DeriveOptions) :
    (Artifact.metadata (metadata g o e)).IsWritten (metadataBody g e) := by
  have hattributes : (metadata g o e).attributes = e.persistentProperties.map (attributeModel g e) :=
    rfl
  have hlisteners : (metadata g o e).listeners = e.listeners.map fun l => ⟨l.event, l.methodName⟩ :=
    rfl
  have htype : "  readonly type: Type" = "  readonly type: " ++ "Type" := by rfl
  unfold Artifact.IsWritten Artifact.render Rendering.metadata metadataBody
  simp [hattributes, hlisteners, htype, line_typeDeclaration, line_typeArgument,
    map_line_attributePieces g e _ o, List.map_flatMap, List.flatMap_map, Function.comp_def,
    String.append_assoc, -String.reduceAppend]
  rfl

end Metadata

/-! ## Implementations -/

section Implementation

variable (o : DeriveOptions) (e : Entity) (p : Property)

/-- The lines that store a value and mark the property as modified. -/
def storePieces : List (List Piece) :=
  let a := accessor e p
  texts ["    " ++ writeTarget a ++ " = value;"] ++
    (given? a.stateField).toList.map fun s =>
      [text ("    this." ++ s ++ " = "), value "PropertyState", text ".MODIFIED;"]

/-- The lines of a method or accessor that returns the value. -/
def readPieces (front : String) : List (List Piece) :=
  [[text (front ++ "(): ")] ++ valueTypePieces e.simpleName p ++ [text " \x7b"]] ++
    texts ["    return " ++ (accessor e p).readExpression ++ ";", "  \x7d", ""]

/-- The lines of a method or accessor that stores the value. -/
def writePieces (front back : String) : List (List Piece) :=
  [[text (front ++ "(value: ")] ++ valueTypePieces e.simpleName p ++ [text back]] ++
    storePieces e p ++ texts ["  \x7d", ""]

/-- The lines of a property's access. -/
def accessorPieces : List (List Piece) :=
  let a := accessor e p
  (if a.propertyAccessor then
    readPieces e p ("  get " ++ a.property) ++
      (if a.writable then writePieces e p ("  set " ++ a.property) ") \x7b" else [])
  else []) ++
  (match given? a.getterName with
    | some getter => readPieces e p ("  " ++ getter)
    | none => []) ++
  (match given? a.setterName with
    | some setter => writePieces e p ("  " ++ setter) "): void \x7b"
    | none => [])

/-- The type in the line that declares the class: a class is extended, an interface implemented. -/
def basePiece : Piece :=
  if e.isInterface then type e.simpleName else value e.simpleName

/-- The comparison of an expression with that of another instance. -/
def comparisonPieces (expression : String) : List Piece :=
  [value "valueEquals", text ("(" ++ expression ++ ", " ++ otherExpression expression ++ ")")]

/-- The line that compares all expressions. -/
def equalityPieces (expressions : List String) : List Piece :=
  if expressions.isEmpty then [text "    return false;"]
  else [text "    return "] ++ [text " && "].intercalate (expressions.map comparisonPieces) ++
    [text ";"]

/-- The lines of the members that every implementation has. -/
def standardPieces (m : ImplementationArtifact) : List (List Piece) :=
  texts ["  equals(other: unknown): boolean \x7b", "    if (other === this) return true;"] ++
  [[text "    if (!(other instanceof ", value m.className, text ")) return false;"],
    equalityPieces m.equalityExpressions] ++
  texts ["  \x7d", "", "  hashCode(): number \x7b"] ++
  [[text "    return ", value "hashValues",
    text ("([" ++ ", ".intercalate m.equalityExpressions ++ "]);")]] ++
  texts ["  \x7d", "", "  toString(): string \x7b"] ++
  [[text "    return ", value "describeEntity", text ("(" ++ quote m.baseName ++ ", [" ++
    ", ".intercalate (m.describedFields.map fun f => "[" ++ quote f.1 ++ ", " ++ f.2 ++ "]") ++
      "]);")]] ++
  texts ["  \x7d", "\x7d"]

/-- The lines of an implementation class. -/
def implementationBody : List (List Piece) :=
  let m := implementation o e
  [[text ("export class " ++ m.className ++ " " ++ m.relation.text ++ " "), basePiece e,
    text " \x7b"]] ++
  (e.properties.filterMap fun p => (given? (accessor e p).stateField).map fun s =>
    [text ("  " ++ s ++ ": "), type "PropertyState", text " = ", value "PropertyState",
      text ".FETCH;"]) ++
  (e.properties.filterMap fun p => (given? (accessor e p).backingField).map fun f =>
    [text ("  private " ++ f ++ "!: ")] ++ valueTypePieces e.simpleName p ++ [text ";"]) ++
  texts [""] ++
  e.properties.flatMap (accessorPieces e) ++
  standardPieces m

theorem map_line_storePieces : (storePieces e p).map line = storeLines (accessor e p) := by
  have hstate : " = PropertyState.MODIFIED;" = " = " ++ ("PropertyState" ++ ".MODIFIED;") := by rfl
  unfold storePieces storeLines
  simp [hstate, String.append_assoc, Function.comp_def, -String.reduceAppend]

theorem map_line_readPieces (front : String) : (readPieces e p front).map line =
    [front ++ "(): " ++ valueType e.simpleName p ++ " \x7b",
      "    return " ++ (accessor e p).readExpression ++ ";", "  \x7d", ""] := by
  simp [readPieces, String.append_assoc]

theorem map_line_writePieces (front back : String) : (writePieces e p front back).map line =
    [front ++ "(value: " ++ valueType e.simpleName p ++ back] ++ storeLines (accessor e p) ++
      ["  \x7d", ""] := by
  simp [writePieces, map_line_storePieces, String.append_assoc]

theorem map_line_accessorPieces : (accessorPieces e p).map line = accessorLines (accessor e p) := by
  have hvalue : (accessor e p).valueType = valueType e.simpleName p := rfl
  unfold accessorPieces accessorLines
  simp only [List.map_append]
  congr 1
  · congr 1
    · split
      · rw [List.map_append, map_line_readPieces]
        split
        · rw [map_line_writePieces]
          rfl
        · rfl
      · rfl
    · cases given? (accessor e p).getterName with
      | none => rfl
      | some getter => exact map_line_readPieces e p _
  · cases given? (accessor e p).setterName with
    | none => rfl
    | some setter => exact map_line_writePieces e p _ _

theorem line_comparisonPieces (expression : String) : line (comparisonPieces expression) =
    "valueEquals(" ++ expression ++ ", " ++ otherExpression expression ++ ")" := by
  have hname : "valueEquals(" = "valueEquals" ++ "(" := by rfl
  simp [comparisonPieces, hname, String.append_assoc, -String.reduceAppend]

theorem line_equalityPieces (expressions : List String) : line (equalityPieces expressions) =
    if expressions.isEmpty then "    return false;"
    else "    return " ++ " && ".intercalate (expressions.map fun e =>
      "valueEquals(" ++ e ++ ", " ++ otherExpression e ++ ")") ++ ";" := by
  unfold equalityPieces
  split
  · rfl
  · simp [line_intercalate, line_comparisonPieces, Function.comp_def, String.append_assoc]

theorem map_line_standardPieces (m : ImplementationArtifact) : (standardPieces m).map line =
    ["  equals(other: unknown): boolean \x7b",
      "    if (other === this) return true;",
      "    if (!(other instanceof " ++ m.className ++ ")) return false;",
      if m.equalityExpressions.isEmpty then "    return false;"
      else "    return " ++ " && ".intercalate (m.equalityExpressions.map fun e =>
        "valueEquals(" ++ e ++ ", " ++ otherExpression e ++ ")") ++ ";",
      "  \x7d",
      "",
      "  hashCode(): number \x7b",
      "    return hashValues([" ++ ", ".intercalate m.equalityExpressions ++ "]);",
      "  \x7d",
      "",
      "  toString(): string \x7b",
      "    return describeEntity(" ++ quote m.baseName ++ ", [" ++
        ", ".intercalate (m.describedFields.map fun f => "[" ++ quote f.1 ++ ", " ++ f.2 ++ "]") ++
        "]);",
      "  \x7d",
      "\x7d"] := by
  have hhash : "    return hashValues([" = "    return " ++ ("hashValues" ++ "([") := by rfl
  have hdescribe : "    return describeEntity(" = "    return " ++ ("describeEntity" ++ "(") := by rfl
  unfold standardPieces
  simp [line_equalityPieces, hhash, hdescribe, String.append_assoc, -String.reduceAppend]

theorem render_basePiece : (basePiece e).render = e.simpleName := by
  unfold basePiece
  split <;> rfl

theorem isWritten_implementation :
    (Artifact.implementation (implementation o e)).IsWritten (implementationBody o e) := by
  have haccessors : (implementation o e).accessors = e.properties.map (accessor e) := rfl
  have hfetch : ": PropertyState = PropertyState.FETCH;" =
      ": " ++ ("PropertyState" ++ (" = " ++ ("PropertyState" ++ ".FETCH;"))) := by rfl
  unfold Artifact.IsWritten Artifact.render Rendering.implementation implementationBody
  simp [haccessors, hfetch, render_basePiece, map_line_standardPieces, map_line_accessorPieces,
    List.map_flatMap, List.flatMap_map, List.map_filterMap, List.filterMap_map, Function.comp_def,
    String.append_assoc, -String.reduceAppend]
  rfl

end Implementation

/-! ## Registries -/

/-- The lines of a registry. -/
def registryBody (m : RegistryArtifact) : List (List Piece) :=
  [[text "export const MODEL: ", type "EntityModel", text " = ", value "createEntityModel",
      text ("(" ++ quote (if m.packageName = "" then "default" else m.packageName) ++ ", [")] ++
    [text ", "].intercalate (m.types.map fun c => [value c, text ".TYPE"]) ++ [text "]);"]]

theorem isWritten_registry (m : RegistryArtifact) :
    (Artifact.registry m).IsWritten (registryBody m) := by
  have hfront : "export const MODEL: EntityModel = createEntityModel(" = "export const MODEL: " ++
      ("EntityModel" ++ (" = " ++ ("createEntityModel" ++ "("))) := by rfl
  unfold Artifact.IsWritten Artifact.render Rendering.registry registryBody
  simp [line_intercalate, hfront, Function.comp_def, String.append_assoc, -String.reduceAppend]
  rfl

end Derivation

end Metamodel
