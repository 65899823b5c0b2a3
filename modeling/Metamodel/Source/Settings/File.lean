import Metamodel.FileTree
import Metamodel.Source.Settings.Option
import Metamodel.Source.Settings.Text

/-!
# Settings of a compiler

The settings that decide how a project's types are read. They come from a file that is asked for, or
from the nearest file of the usual name in the project's directory and those above it. A file may
extend others, whose options it overlays.
-/

namespace Metamodel.Source

/-- The settings that matter for reading declarations. -/
structure Settings where
  /-- whether types without an absent value are told from those with one -/
  strictNulls : Bool
  /-- the edition whose library is known -/
  edition : Nat
  /-- whether the names of a browser are known -/
  browser : Bool
  /-- whether a module may be a directory or a package -/
  packages : Bool
  /-- the directory in which modules are looked up -/
  base : Option String
  /-- other places of modules by patterns of their names -/
  paths : List (String × List String)
  /-- the directory from which these places are given -/
  pathsBase : String
  deriving Inhabited

/-- Why the settings of a project cannot be read. -/
inductive SettingsError where
  | notFound (path : String)
  | unreadable (path : String)
  | invalid (path : String)
  deriving DecidableEq

def SettingsError.message : SettingsError → String
  | notFound path => "tsconfig not found: " ++ path
  | unreadable path => "Failed to read tsconfig: " ++ path ++ "\nmalformed text"
  | invalid path => "Failed to parse tsconfig: " ++ path ++ "\nmalformed text"

/-- The name of the file that holds a project's settings. -/
def settingsFileName : String := "tsconfig.json"

/-! ## Files that extend others -/

/-- The file that another one, in a directory, extends by a name. -/
def extendedFile? (t : FileTree) (directory name : String) : Option String :=
  let near (path : String) : Option String :=
    [path, path ++ ".json"].find? fun p =>
      t.hasFile p && (p != path ++ ".json" || !(".json".toList.isSuffixOf path.toList))
  if Path.isAbsolute name || "./".toList.isPrefixOf name.toList ||
      "../".toList.isPrefixOf name.toList then
    near (Path.resolve [directory, name])
  else if name = "" then none
  else
    let segs := Path.resolvedSegments [directory]
    ((segs :: (FileTree.ancestors segs).reverse).findSome? fun d =>
      let path := Path.absolute (d ++ ["node_modules", name])
      match near path with
      | some p => some p
      | none => [path ++ "/" ++ settingsFileName].find? t.hasFile)

/-- The names that a settings file extends; nothing when they are of a wrong kind. -/
def extendedNames? (members : List (String × Json)) : Option (List String) :=
  match members.lookup "extends" with
  | none => some []
  | some (.string s) => some [s]
  | some (.array items) => items.mapM Json.asString?
  | some .null => some []
  | some (.bool false) => some []
  | _ => none

/-- The items of a list that a settings file may give; nothing when it gives no list. -/
def givenItems? (members : List (String × Json)) (name : String) : Option (List Json) :=
  match members.lookup name with
  | none => some []
  | some .null => some []
  | some (.array items) => some items
  | _ => none

/-- Whether a pattern ends in any number of directories. -/
def endsInDirectories (pattern : String) : Bool :=
  match (Path.segments pattern).reverse with
  | "**" :: _ => true
  | "" :: "**" :: _ => true
  | _ => false

/-- Whether a settings file gives a list of texts, or none. -/
def admitsTexts (members : List (String × Json)) (name : String) (admits : String → Bool) : Bool :=
  match givenItems? members name with
  | some items => items.all fun v => (v.asString?.map admits).getD false
  | none => false

/-- Whether a settings file gives an empty list. -/
def givesEmptyList (members : List (String × Json)) (name : String) : Bool :=
  match members.lookup name with
  | some (.array items) => items.isEmpty
  | _ => false

/-- Whether the lists of files in a settings file are well formed. -/
def admitsFileLists (members : List (String × Json)) : Bool :=
  let given (name : String) : Bool := members.any (·.1 == name)
  admitsTexts members "files" (fun _ => true) &&
    admitsTexts members "include" (!endsInDirectories ·) &&
    admitsTexts members "exclude" (fun _ => true) &&
    (match givenItems? members "references" with
      | some items => items.all fun v => ((v.get? "path").bind Json.asString?).isSome
      | none => false) &&
    (!givesEmptyList members "files" || given "extends" ||
      (given "references" && !givesEmptyList members "references")) &&
    (match members.lookup "compileOnSave" with
      | none => true
      | some .null => true
      | some (.bool _) => true
      | _ => false) &&
    !given "excludes"

/-- The options of a settings file with paths made absolute. -/
def ownOptions (directory : String) (members : List (String × Json)) : List (String × Json) :=
  match members.lookup "compilerOptions" with
  | some (.object options) =>
    (options.map fun o =>
      match o with
      | ("baseUrl", .string s) => ("baseUrl", Json.string (Path.resolve [directory, s]))
      | _ => o) ++
      if options.any (·.1 == "paths") then [("pathsBasePath", .string directory)] else []
  | _ => []

/-- The options of a settings file over those of the files that it extends; nothing when one of them
is not well formed. `above` are the files that extend it. -/
def optionsFrom (t : FileTree) : Nat → List String → String → List (String × Json) →
    Option (List (String × Json))
  | 0, _, _, _ => none
  | n + 1, above, file, members => do
    let directory := Path.directory file
    guard (admitsFileLists members)
    guard (admitsOptions ((members.lookup "compilerOptions").getD .null))
    let names ← extendedNames? members
    let inherited ← names.mapM fun name => do
      let base ← extendedFile? t directory name
      guard (!(file :: above).contains base)
      let text ← (t.read base).toOption
      optionsFrom t n (file :: above) base (← SettingsText.parse? text)
    pure (ownOptions directory members ++ (inherited.reverse).flatten)

/-! ## Settings -/

/-- The settings that some options describe. The first option of a name counts. -/
def Settings.ofOptions (options : List (String × Json)) : Settings :=
  let flag (name : String) : Option Bool := (options.lookup name).bind Json.asBool?
  let text (name : String) : Option String := (options.lookup name).bind Json.asString?
  let lower (s : String) : String := String.ofList (s.toList.map Char.toLower)
  let module := (text "module").map lower
  let target : Nat :=
    match ((text "target").map lower).bind fun name => editions.lookup name with
    | some n => n
    | none =>
      match module with
      | some "node16" | some "node18" => 2022
      | some "node20" => 2023
      | some "nodenext" => 9999
      | _ => 5
  let libraries : Option (List String) :=
    ((options.lookup "lib").bind Json.asArray?).map fun items =>
      (items.filterMap Json.asString?).map lower
  let editionOf (name : String) : Nat :=
    (editions.lookup (String.ofList (name.toList.takeWhile (· != '.')))).getD 5
  let withoutLibrary := (flag "noLib").getD false
  { strictNulls := (flag "strictNullChecks").getD ((flag "strict").getD false)
    edition :=
      if withoutLibrary then 0
      else match libraries with
        | some names => names.foldl (fun n name => max n (editionOf name)) 5
        | none => target
    browser :=
      !withoutLibrary && match libraries with
        | some names => names.contains "dom"
        | none => true
    packages :=
      match (text "moduleResolution").map lower with
      | some "classic" => false
      | some _ => true
      | none =>
        match module with
        | some m => ["commonjs", "node16", "node18", "node20", "nodenext", "preserve"].contains m
        | none => decide (target < 2015)
    base := text "baseUrl"
    paths :=
      ((options.lookup "paths").bind Json.asMembers?).getD [] |>.map fun p =>
        (p.1, ((p.2.asArray?).getD []).filterMap Json.asString?)
    pathsBase := (text "baseUrl").getD ((text "pathsBasePath").getD "/") }

/-- The settings of a project without a file. -/
def Settings.default : Settings :=
  .ofOptions [("strict", .bool true), ("target", .string "es2022")]

/-- The settings of the project in a directory, with the file that gives them. -/
def loadSettings (t : FileTree) (root : String) (asked : Option String) :
    Except SettingsError (Settings × Option String) :=
  let segs := Path.resolvedSegments [root]
  let file := match asked with
    | some path => some (Path.resolve [root, path])
    | none =>
      ((segs :: (FileTree.ancestors segs).reverse).map fun d =>
        Path.absolute (d ++ [settingsFileName])).find? t.hasFile
  match file with
  | none => .ok (.default, none)
  | some file =>
    if !t.hasFile file then .error (.notFound file)
    else
      match (t.read file).toOption.bind SettingsText.parse? with
      | none => .error (.unreadable file)
      | some members =>
        match optionsFrom t (t.nodes.length + 1) [] file members with
        | none => .error (.invalid file)
        | some options => .ok (.ofOptions options, some file)

end Metamodel.Source
