import Metamodel.Artifact.Import
import Metamodel.Entity.Naming
import Metamodel.Graph.Basic
import Metamodel.Package

/-!
# Deriving artifacts

The artifacts of a graph: for each node its implementation, when it has one, and its metadata,
and then a registry for each package with entities. Files lie in the directory of their package
below the output directory, and import each other and the declaring sources by relative paths.
-/

namespace Metamodel

/-- The settings of a derivation. -/
structure DeriveOptions where
  runtimeModule : String
  /-- the output directory, relative to the project's root -/
  outDir : String
  generateModel : Bool

namespace Entity

/-- The name of the metadata class. -/
def metadataClass (e : Entity) : String :=
  e.simpleName ++ "_"

/-- The name of the generated implementation class. -/
def implementationClass (e : Entity) : String :=
  e.entityName.getD ("Generated" ++ e.simpleName)

/-- Mutable entities have a generated implementation. -/
def hasImplementation (e : Entity) : Bool :=
  e.kind == .entity && !e.isImmutable

/-- Whether the generated implementation tracks the state of its properties. -/
def tracksState (e : Entity) : Bool :=
  e.hasImplementation && !e.isStateless

end Entity

/-- The method that ends the definition of an attribute of the type. -/
def TypeRef.builderMethod (t : TypeRef) : BuilderMethod :=
  if t.kind ≠ .container then .build
  else
    match t.container with
    | some .list => .buildList
    | some .set => .buildSet
    | some .map => .buildMap
    | some .collection => .buildCollection
    | none => .build

namespace Derivation

/-- The path of a generated class below the output directory. -/
def outputFile (e : Entity) (className : String) : String :=
  Path.join [packageDirectory e.packageName, className ++ ".ts"]

/-- How a file names a module, both relative to the project's root. -/
def specifier (file module : String) : String :=
  let path := Path.relative (Path.directory file) module
  if path.toList.head? == some '.' then path else "./" ++ path

/-- The endings of source files, written backwards. -/
def sourceEndings : List (List Char) :=
  ["st.".toList, "xst.".toList, "stm.".toList, "stc.".toList]

/-- The path without the ending of a source file, or of a declaration file. -/
def dropSourceEnding (file : String) : String :=
  let reversed := file.toList.reverse
  match sourceEndings.findSome? (Naming.after? · reversed) with
  | some rest => String.ofList ((Naming.after? "d.".toList rest).getD rest).reverse
  | none => file

/-- The module that declares an entity, relative to the project's root. -/
def sourceModule (e : Entity) : String :=
  match e.source.filter (·.file ≠ "") with
  | some l => dropSourceEnding l.file
  | none => Path.join [packageDirectory e.packageName, e.simpleName]

/-- The module of a generated class, relative to the project's root. -/
def generatedModule (o : DeriveOptions) (e : Entity) (className : String) : String :=
  Path.join [o.outDir, packageDirectory e.packageName, className]

/-- The type expression of a property's values, read from the type that has it. -/
def valueType (owner : String) (p : Property) : String :=
  match p.memberKind with
  | .method => "ReturnType<" ++ owner ++ "['" ++ p.memberName ++ "']>"
  | _ => owner ++ "['" ++ p.name ++ "']"

/-- Whether nothing can be written through the attribute: the property is read-only, the entity
immutable, or the member a getter method of a class. -/
def isReadOnlyAttribute (e : Entity) (p : Property) : Bool :=
  p.isReadOnly || e.isImmutable || (!e.isInterface && p.memberKind == .method)

/-- The attribute of a property. -/
def attributeModel (g : Graph) (e : Entity) (p : Property) : AttributeModel :=
  let readOnly := isReadOnlyAttribute e p
  { fieldName := Naming.upperUnderscore p.name
    name := p.name
    columnName := p.columnName
    declaredTypeName := p.declaredTypeName
    valueType := valueType e.simpleName p
    getterName := if p.memberKind = .method then p.memberName else p.getterName e.nameStyle
    setterName := if readOnly then none else some (p.setterName e.nameStyle)
    isKey := p.isKey
    isGenerated := p.isGenerated
    isVersion := p.isVersion
    isNullable := p.isNullable
    isReadOnly := readOnly
    isLazy := p.isLazy
    cardinality := p.cardinality
    referencedType := (g.edge? e.qualifiedName p.name).map (·.target.metadataClass ++ ".TYPE")
    builderMethod := p.type.builderMethod
    stateField := if e.tracksState then some p.stateField else none }

/-- What an attribute needs to be imported. -/
def attributeRequests (g : Graph) (e : Entity) (o : DeriveOptions) (fileModule : String)
    (p : Property) : List ImportRequest :=
  (match g.edge? e.qualifiedName p.name with
    | some edge =>
      if edge.target.qualifiedName = e.qualifiedName then []
      else
        let target := edge.target.metadataClass
        [⟨specifier fileModule (generatedModule o edge.target target), target, false⟩]
    | none => []) ++
  if p.cardinality.isSome then [⟨o.runtimeModule, "Cardinality", false⟩] else []

/-- The metadata class of a node. -/
def metadata (g : Graph) (o : DeriveOptions) (e : Entity) : MetadataArtifact :=
  let className := e.metadataClass
  let fileName := outputFile e className
  let fileModule := Path.join [o.outDir, fileName]
  let implementation := if e.hasImplementation then some e.implementationClass else none
  let persistent := e.persistentProperties
  let requests : List ImportRequest :=
    [⟨o.runtimeModule, "AttributeBuilder", false⟩, ⟨o.runtimeModule, "TypeBuilder", false⟩,
      ⟨o.runtimeModule, "Attribute", true⟩, ⟨o.runtimeModule, "Type", true⟩,
      ⟨specifier fileModule (sourceModule e), e.simpleName, true⟩] ++
    (implementation.filter (· ≠ "")).toList.map (fun c =>
      ⟨specifier fileModule (generatedModule o e c), c, false⟩) ++
    persistent.flatMap (attributeRequests g e o fileModule)
  { entity := e.qualifiedName
    entityKind := e.kind
    packageName := e.packageName
    fileName
    className
    entityTypeName := e.simpleName
    tableName := e.tableName
    isReadOnly := e.isReadOnly
    isStateless := e.isStateless
    isImmutable := e.isImmutable
    implementationClass := implementation
    attributes := persistent.map (attributeModel g e)
    listeners := e.listeners.map fun l => ⟨l.event, l.methodName⟩
    imports := Import.collect o.runtimeModule requests }

/-- The name of a method, unless the property or its member has that name already. -/
def distinctFrom (p : Property) (name : String) : Option String :=
  if name = p.name ∨ name = p.memberName then none else some name

/-- The generated setter of a property. -/
def accessorSetter (e : Entity) (p : Property) : Option String :=
  if p.isReadOnly then none else distinctFrom p (p.setterName e.nameStyle)

/-- The generated access to a property: over the members of an extended class, or over a field of
its own when an interface is implemented. A class's getter method leaves nothing to generate. -/
def accessor (e : Entity) (p : Property) : AccessorModel :=
  let isMethod := p.memberKind == .method
  let backingField := "$" ++ p.name ++ "_value"
  { property := p.name
    stateField := if e.tracksState && !p.isTransient then some p.stateField else none
    valueType := valueType e.simpleName p
    readExpression :=
      if e.isInterface then "this." ++ backingField
      else if isMethod then "this." ++ p.memberName ++ "()"
      else "this." ++ p.name
    getterName :=
      if isMethod then (if e.isInterface then some p.memberName else none)
      else distinctFrom p (p.getterName e.nameStyle)
    setterName := if isMethod && !e.isInterface then none else accessorSetter e p
    writable := !p.isReadOnly && (e.isInterface || !isMethod)
    storage := if e.isInterface then .backing else .inherited
    backingField := if e.isInterface then some backingField else none
    propertyAccessor := e.isInterface && !isMethod }

/-- The implementation class of an entity. Its key properties decide equality, or all persistent
ones when there is no key. -/
def implementation (o : DeriveOptions) (e : Entity) : ImplementationArtifact :=
  let className := e.implementationClass
  let fileName := outputFile e className
  let fileModule := Path.join [o.outDir, fileName]
  let persistent := e.persistentProperties
  let keyed := persistent.filter (·.isKey)
  let compared := if keyed.isEmpty then persistent else keyed
  let requests : List ImportRequest :=
    [⟨o.runtimeModule, "describeEntity", false⟩, ⟨o.runtimeModule, "hashValues", false⟩,
      ⟨o.runtimeModule, "valueEquals", false⟩] ++
    (if e.tracksState then [⟨o.runtimeModule, "PropertyState", false⟩] else []) ++
    [⟨specifier fileModule (sourceModule e), e.simpleName, e.isInterface⟩]
  { entity := e.qualifiedName
    packageName := e.packageName
    fileName
    className
    baseName := e.simpleName
    relation := if e.isInterface then .implements else .extends
    accessors := e.properties.map (accessor e)
    equalityExpressions := compared.map fun p => (accessor e p).readExpression
    describedFields := persistent.map fun p => (p.name, (accessor e p).readExpression)
    imports := Import.collect o.runtimeModule requests }

/-- The registry of a package, given the metadata of its entities. -/
def registry (o : DeriveOptions) (packageName : String) (members : List MetadataArtifact) :
    RegistryArtifact :=
  let classes := members.map (·.className)
  let requests : List ImportRequest :=
    [⟨o.runtimeModule, "createEntityModel", false⟩, ⟨o.runtimeModule, "EntityModel", true⟩] ++
    classes.map fun c => ⟨"./" ++ c, c, false⟩
  { packageName
    fileName := Path.join [packageDirectory packageName, "Models.ts"]
    types := Text.collated classes
    imports := Import.collect o.runtimeModule requests }

/-- The registries of the packages that have entities, in dictionary order. -/
def registries (o : DeriveOptions) (all : List MetadataArtifact) : List RegistryArtifact :=
  let entities := all.filter (·.entityKind == .entity)
  (Text.collated (entities.map (·.packageName)).eraseDups).map fun packageName =>
    registry o packageName (entities.filter (·.packageName == packageName))

/-- The artifacts of a node. -/
def nodeArtifacts (g : Graph) (o : DeriveOptions) (e : Entity) : List Artifact :=
  (if e.hasImplementation then [.implementation (implementation o e)] else []) ++
    [.metadata (metadata g o e)]

end Derivation

/-- All artifacts of a graph. -/
def Graph.artifacts (g : Graph) (o : DeriveOptions) : List Artifact :=
  g.nodes.flatMap (Derivation.nodeArtifacts g o) ++
    if o.generateModel then
      (Derivation.registries o (g.nodes.map (Derivation.metadata g o))).map .registry
    else []

end Metamodel
