import Metamodel.Artifact.Basic
import Metamodel.Text.Quoted

/-!
# Rendering artifacts

The text of the generated files, line by line. Optional names that are empty count as absent.
-/

namespace Metamodel.Rendering

open Text (quote)

/-- The first line of every generated file. -/
def header : String :=
  "// Generated by entity-graph-codegen. Do not edit."

/-- The lines as a text that ends in a line break. -/
def ofLines (lines : List String) : String :=
  "\n".intercalate lines ++ "\n"

/-- A name that is present and not empty. -/
def given? (name : Option String) : Option String :=
  name.filter (· ≠ "")

/-- An import line. -/
def importLine (i : Import) : String :=
  "import " ++ (if i.typeOnly then "type " else "") ++ "\x7b " ++ ", ".intercalate i.names ++
    " \x7d from " ++ quote i.module ++ ";"

/-- A line, when a condition holds. -/
def lineIf (condition : Bool) (line : String) : List String :=
  if condition then [line] else []

/-- The lines that give an attribute access to the state field of an implementation. -/
def stateAccess (implementation field : String) : List String :=
  ["    .setPropertyState(\x7b",
    "      get: (entity) => (entity instanceof " ++ implementation ++ " ? entity." ++ field ++
      " : undefined),",
    "      set: (entity, state) => \x7b",
    "        if (entity instanceof " ++ implementation ++ ") entity." ++ field ++ " = state;",
    "      \x7d,",
    "    \x7d)"]

/-- The lines of an attribute. -/
def attributeLines (m : MetadataArtifact) (a : AttributeModel) : List String :=
  let generics := "<" ++ m.entityTypeName ++ ", " ++ a.valueType ++ ">"
  ["  static readonly " ++ a.fieldName ++ ": Attribute" ++ generics ++ " = new AttributeBuilder" ++
      generics ++ "(" ++ quote a.name ++ ", " ++ quote a.declaredTypeName ++ ")",
    "    .setColumnName(" ++ quote a.columnName ++ ")",
    "    .setGetterName(" ++ quote a.getterName ++ ")"] ++
  (given? a.setterName).toList.map (fun s => "    .setSetterName(" ++ quote s ++ ")") ++
  lineIf a.isKey "    .setKey(true)" ++
  lineIf a.isGenerated "    .setGenerated(true)" ++
  lineIf a.isVersion "    .setVersion(true)" ++
  lineIf a.isNullable "    .setNullable(true)" ++
  lineIf a.isReadOnly "    .setReadOnly(true)" ++
  lineIf a.isLazy "    .setLazy(true)" ++
  a.cardinality.toList.map (fun c => "    .setCardinality(Cardinality." ++ c.text ++ ")") ++
  (given? a.referencedType).toList.map (fun t => "    .setReferencedType(() => " ++ t ++ ")") ++
  (match given? a.stateField, given? m.implementationClass with
    | some field, some implementation => stateAccess implementation field
    | _, _ => []) ++
  ["    ." ++ a.builderMethod.text ++ "();"]

/-- The text of a metadata class. -/
def metadata (m : MetadataArtifact) : String :=
  let typeArg := "<" ++ m.entityTypeName ++ ">"
  ofLines (
    [header] ++ m.imports.map importLine ++ [""] ++
    ["export class " ++ m.className ++ " \x7b"] ++
    m.attributes.flatMap (fun a => attributeLines m a ++ [""]) ++
    ["  static readonly TYPE: Type" ++ typeArg ++ " = new TypeBuilder" ++ typeArg ++ "(" ++
        quote m.entity ++ ")",
      "    .setTableName(" ++ quote m.tableName ++ ")"] ++
    lineIf m.isReadOnly "    .setReadOnly(true)" ++
    lineIf m.isStateless "    .setStateless(true)" ++
    lineIf m.isImmutable "    .setImmutable(true)" ++
    (given? m.implementationClass).toList.map (fun c =>
      "    .setFactory(() => new " ++ c ++ "())") ++
    m.attributes.map (fun a => "    .addAttribute(" ++ m.className ++ "." ++ a.fieldName ++ ")") ++
    m.listeners.map (fun l =>
      "    .addListener(" ++ quote l.event.text ++ ", (entity) => entity." ++ l.methodName ++
        "())") ++
    ["    .build();",
      "",
      "  static readonly INSTANCE = new " ++ m.className ++ "();",
      "",
      "  readonly type: Type" ++ typeArg ++ " = " ++ m.className ++ ".TYPE;",
      "",
      "  private constructor() \x7b\x7d",
      "\x7d"])

/-- What an accessor writes to: the backing field, or the expression that is read. -/
def writeTarget (a : AccessorModel) : String :=
  match a.storage with
  | .backing => "this." ++ a.backingField.getD "undefined"
  | .inherited => a.readExpression

/-- The lines that store a value and mark the property as modified. -/
def storeLines (a : AccessorModel) : List String :=
  ["    " ++ writeTarget a ++ " = value;"] ++
    (given? a.stateField).toList.map fun s => "    this." ++ s ++ " = PropertyState.MODIFIED;"

/-- The lines of an accessor: the property itself, its getter and its setter. -/
def accessorLines (a : AccessorModel) : List String :=
  (if a.propertyAccessor then
    ["  get " ++ a.property ++ "(): " ++ a.valueType ++ " \x7b",
      "    return " ++ a.readExpression ++ ";",
      "  \x7d",
      ""] ++
    (if a.writable then
      ["  set " ++ a.property ++ "(value: " ++ a.valueType ++ ") \x7b"] ++ storeLines a ++
        ["  \x7d", ""]
    else [])
  else []) ++
  (match given? a.getterName with
    | some getter =>
      ["  " ++ getter ++ "(): " ++ a.valueType ++ " \x7b",
        "    return " ++ a.readExpression ++ ";",
        "  \x7d",
        ""]
    | none => []) ++
  (match given? a.setterName with
    | some setter =>
      ["  " ++ setter ++ "(value: " ++ a.valueType ++ "): void \x7b"] ++ storeLines a ++
        ["  \x7d", ""]
    | none => [])

/-- The same expression on another instance. -/
def otherExpression (expression : String) : String :=
  if "this.".toList.isPrefixOf expression.toList then
    "other." ++ String.ofList (expression.toList.drop 5)
  else expression

/-- The text of an implementation class. -/
def implementation (m : ImplementationArtifact) : String :=
  ofLines (
    [header] ++ m.imports.map importLine ++ [""] ++
    ["export class " ++ m.className ++ " " ++ m.relation.text ++ " " ++ m.baseName ++ " \x7b"] ++
    (m.accessors.filterMap fun a => (given? a.stateField).map fun s =>
      "  " ++ s ++ ": PropertyState = PropertyState.FETCH;") ++
    (m.accessors.filterMap fun a => (given? a.backingField).map fun f =>
      "  private " ++ f ++ "!: " ++ a.valueType ++ ";") ++
    [""] ++
    m.accessors.flatMap accessorLines ++
    ["  equals(other: unknown): boolean \x7b",
      "    if (other === this) return true;",
      "    if (!(other instanceof " ++ m.className ++ ")) return false;",
      if m.equalityExpressions.isEmpty then "    return false;"
      else "    return " ++ " && ".intercalate (m.equalityExpressions.map fun e =>
        "valueEquals(" ++ e ++ ", " ++ otherExpression e ++ ")") ++ ";",
      "  \x7d",
      "",
      "  hashCode(): number \x7b",
      "    return hashValues([" ++ ", ".intercalate m.equalityExpressions ++ "]);",
      "  \x7d",
      "",
      "  toString(): string \x7b",
      "    return describeEntity(" ++ quote m.baseName ++ ", [" ++
        ", ".intercalate (m.describedFields.map fun f => "[" ++ quote f.1 ++ ", " ++ f.2 ++ "]") ++
        "]);",
      "  \x7d",
      "\x7d"])

/-- The text of a registry. -/
def registry (m : RegistryArtifact) : String :=
  ofLines (
    [header] ++ m.imports.map importLine ++ [""] ++
    ["export const MODEL: EntityModel = createEntityModel(" ++
      quote (if m.packageName = "" then "default" else m.packageName) ++ ", [" ++
      ", ".intercalate (m.types.map (· ++ ".TYPE")) ++ "]);"])

end Metamodel.Rendering

namespace Metamodel

/-- The text of a generated file. -/
def Artifact.render : Artifact → String
  | .implementation m => Rendering.implementation m
  | .metadata m => Rendering.metadata m
  | .registry m => Rendering.registry m

end Metamodel
