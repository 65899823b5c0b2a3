import Metamodel.Json.Basic

/-!
# Options of a compiler

The options that a settings file may give, each with the values that it admits. Names are told apart
by case, the names of choices are not.
-/

namespace Metamodel.Source

/-- The values that an option admits. -/
inductive OptionKind where
  | flag
  | text
  | count
  | record
  | choice (names : List String)
  | list (item : OptionKind)
  /-- an option that a file may not give -/
  | never

/-- The language editions by their names. -/
def editions : List (String × Nat) :=
  [("es3", 5), ("es5", 5), ("es6", 2015), ("es2015", 2015), ("es2016", 2016), ("es2017", 2017),
    ("es2018", 2018), ("es2019", 2019), ("es2020", 2020), ("es2021", 2021), ("es2022", 2022),
    ("es2023", 2023), ("es2024", 2024), ("esnext", 9999)]

/-- The names of library parts that belong to an edition. -/
def libraryParts : List (String × List String) :=
  [("es2015", ["core", "collection", "generator", "iterable", "promise", "proxy", "reflect",
      "symbol", "symbol.wellknown"]),
    ("es2016", ["array.include", "intl"]),
    ("es2017", ["arraybuffer", "date", "object", "sharedmemory", "string", "intl",
      "typedarrays"]),
    ("es2018", ["asyncgenerator", "asynciterable", "intl", "promise", "regexp"]),
    ("es2019", ["array", "object", "string", "symbol", "intl"]),
    ("es2020", ["bigint", "date", "promise", "sharedmemory", "string", "symbol.wellknown", "intl",
      "number"]),
    ("es2021", ["promise", "string", "weakref", "intl"]),
    ("es2022", ["array", "error", "intl", "object", "string", "regexp"]),
    ("es2023", ["array", "collection", "intl"]),
    ("es2024", ["arraybuffer", "collection", "object", "promise", "regexp", "sharedmemory",
      "string"]),
    ("esnext", ["array", "collection", "symbol", "asynciterable", "intl", "disposable", "bigint",
      "string", "promise", "weakref", "decorators", "object", "regexp", "iterator", "float16",
      "error", "sharedmemory"])]

/-- The names of the libraries. -/
def libraryNames : List String :=
  editions.map (·.1) ++ ["es7", "dom", "dom.iterable", "dom.asynciterable", "webworker",
    "webworker.importscripts", "webworker.iterable", "webworker.asynciterable", "scripthost",
    "decorators", "decorators.legacy"] ++
    libraryParts.flatMap fun p => p.2.map fun part => p.1 ++ "." ++ part

/-- The options that a file may switch on and off. -/
def flagOptions : List String :=
  ["preserveWatchOutput", "listFiles", "explainFiles", "listEmittedFiles", "pretty",
    "traceResolution", "diagnostics", "extendedDiagnostics", "incremental", "declaration",
    "declarationMap", "emitDeclarationOnly", "sourceMap", "inlineSourceMap", "noCheck", "noEmit",
    "assumeChangesOnlyAffectDirectDependencies", "allowJs", "checkJs", "composite",
    "removeComments", "importHelpers", "downlevelIteration", "isolatedModules",
    "verbatimModuleSyntax", "isolatedDeclarations", "erasableSyntaxOnly", "libReplacement",
    "strict", "noImplicitAny", "strictNullChecks", "strictFunctionTypes", "strictBindCallApply",
    "strictPropertyInitialization", "strictBuiltinIteratorReturn", "noImplicitThis",
    "useUnknownInCatchVariables", "alwaysStrict", "noUnusedLocals", "noUnusedParameters",
    "exactOptionalPropertyTypes", "noImplicitReturns", "noFallthroughCasesInSwitch",
    "noUncheckedIndexedAccess", "noImplicitOverride", "noPropertyAccessFromIndexSignature",
    "allowSyntheticDefaultImports", "esModuleInterop", "preserveSymlinks", "allowUmdGlobalAccess",
    "allowImportingTsExtensions", "rewriteRelativeImportExtensions", "resolvePackageJsonExports",
    "resolvePackageJsonImports", "noUncheckedSideEffectImports", "inlineSources",
    "experimentalDecorators", "emitDecoratorMetadata", "resolveJsonModule",
    "allowArbitraryExtensions", "skipDefaultLibCheck", "emitBOM", "noErrorTruncation", "noLib",
    "noResolve", "stripInternal", "disableSizeLimit", "disableSourceOfProjectReferenceRedirect",
    "disableSolutionSearching", "disableReferencedProjectLoad", "noImplicitUseStrict",
    "noEmitHelpers", "noEmitOnError", "preserveConstEnums", "skipLibCheck", "allowUnusedLabels",
    "allowUnreachableCode", "suppressExcessPropertyErrors", "suppressImplicitAnyIndexErrors",
    "forceConsistentCasingInFileNames", "noStrictGenericChecks", "useDefineForClassFields",
    "preserveValueImports", "keyofStringsOnly"]

/-- The options that take a text. -/
def textOptions : List String :=
  ["generateCpuProfile", "generateTrace", "outFile", "outDir", "rootDir", "tsBuildInfoFile",
    "baseUrl", "sourceRoot", "mapRoot", "jsxFactory", "jsxFragmentFactory", "jsxImportSource",
    "out", "reactNamespace", "charset", "declarationDir", "ignoreDeprecations"]

/-- All options with their kinds. -/
def compilerOptions : List (String × OptionKind) :=
  flagOptions.map (·, .flag) ++ textOptions.map (·, .text) ++
    ["help", "watch", "locale", "all", "version", "init", "project", "showConfig",
      "listFilesOnly"].map (·, .never) ++
    ["rootDirs", "typeRoots", "types", "moduleSuffixes", "customConditions"].map
      (·, .list .text) ++
    [("target", .choice (editions.map (·.1))),
      ("module", .choice ["none", "commonjs", "amd", "system", "umd", "es6", "es2015", "es2020",
        "es2022", "esnext", "node16", "node18", "node20", "nodenext", "preserve"]),
      ("moduleResolution", .choice ["node10", "node", "classic", "node16", "nodenext",
        "bundler"]),
      ("lib", .list (.choice libraryNames)),
      ("jsx", .choice ["preserve", "react-native", "react-jsx", "react-jsxdev", "react"]),
      ("importsNotUsedAsValues", .choice ["remove", "preserve", "error"]),
      ("newLine", .choice ["crlf", "lf"]),
      ("moduleDetection", .choice ["auto", "legacy", "force"]),
      ("maxNodeModuleJsDepth", .count), ("paths", .record), ("plugins", .list .record)]

/-- Whether a value is admitted. No value at all is admitted everywhere. -/
def OptionKind.admits : OptionKind → Json → Bool
  | .never, _ => false
  | _, .null => true
  | .flag, .bool _ => true
  | .text, .string _ => true
  | .count, .number _ => true
  | .record, .object _ => true
  | .record, .array _ => true
  | .choice names, .string s => names.contains (String.ofList (s.toList.map Char.toLower))
  | .list item, .array items => items.all item.admits
  | _, _ => false

/-- Whether all members of a value are options with admitted values. A value without members gives
no options. -/
def admitsOptions : Json → Bool
  | .object members =>
    members.all fun m => ((compilerOptions.lookup m.1).map (·.admits m.2)).getD false
  | .string s => s.isEmpty
  | .array items => items.isEmpty
  | _ => true

end Metamodel.Source
