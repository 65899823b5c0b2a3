import Metamodel.Json.Parser
import Metamodel.Source.Settings.File

/-!
# Modules by name

A module is named relative to the text that uses it, or by a path that is looked up in the settings'
directories, in the directories above the text, or among the packages. A name leads to a source file
by the endings that such files have; where packages are known it may also lead to a directory.
-/

namespace Metamodel.Source

/-- The endings of source files in the order in which they are tried. -/
def sourceEndings : List String := [".ts", ".tsx", ".d.ts"]

/-- The endings of generated files with the endings of the files that they may come from. -/
def generatedEndings : List (String × List String) :=
  [(".js", [".ts", ".tsx", ".d.ts"]), (".jsx", [".tsx", ".d.ts"]), (".mjs", [".mts", ".d.mts"]),
    (".cjs", [".cts", ".d.cts"])]

/-- A text without an ending that it has. -/
def withoutEnding? (ending path : String) : Option String :=
  if ending.toList.isSuffixOf path.toList then
    some (String.ofList (path.toList.take (path.length - ending.length)))
  else none

/-- The source file that a path without an ending, or with one of a source or a generated file,
leads to. -/
def fileOf? (t : FileTree) (path : String) : Option String :=
  let named := sourceEndings.filterMap fun e => (withoutEnding? e path).map fun _ => path
  let generated := generatedEndings.flatMap fun e =>
    match withoutEnding? e.1 path with
    | some bare => e.2.map (bare ++ ·)
    | none => []
  (generated ++ named ++ sourceEndings.map (path ++ ·)).find? t.hasFile

/-- The source file that a directory stands for: the one that its package names, or its index. -/
def directoryFile? (t : FileTree) (path : String) : Option String :=
  let package := ((t.read (path ++ "/package.json")).toOption.bind Json.parse?).getD .null
  let named := ["typesVersions", "types", "typings", "main"].filterMap fun name =>
    (package.get? name).bind Json.asString?
  match named.findSome? fun name =>
      let target := Path.resolve [path, name]
      match fileOf? t target with
      | some file => some file
      | none => fileOf? t (target ++ "/index") with
  | some file => some file
  | none => (sourceEndings.map (path ++ "/index" ++ ·)).find? t.hasFile

/-- The source file that a path leads to. -/
def pathFile? (t : FileTree) (packages : Bool) (path : String) : Option String :=
  match fileOf? t path with
  | some file => some file
  | none => if packages then directoryFile? t path else none

/-- What a star in a pattern stands for in a name; nothing for a name that the pattern does not
match. -/
def starOf? (pattern name : String) : Option String :=
  let front := pattern.toList.takeWhile (· != '*')
  match pattern.toList.drop front.length with
  | [] => if pattern = name then some "" else none
  | _ :: back =>
    let cs := name.toList
    if front.isPrefixOf cs && back.isSuffixOf cs && front.length + back.length ≤ cs.length then
      some (String.ofList ((cs.drop front.length).take (cs.length - front.length - back.length)))
    else none

/-- The file that the patterns of the settings give a name: of the patterns that match, the one with
the longest beginning counts, and an exact one before all others. -/
def mappedFile? (t : FileTree) (s : Settings) (name : String) : Option String :=
  let matching := s.paths.filterMap fun p => (starOf? p.1 name).map fun star => (p, star)
  let weight (p : (String × List String) × String) : Nat :=
    if p.1.1.toList.contains '*' then (p.1.1.toList.takeWhile (· != '*')).length
    else p.1.1.length + name.length + 1
  let best := matching.foldl
    (fun found p => match found with
      | none => some p
      | some q => if weight q < weight p then some p else some q) none
  best.bind fun p => p.1.2.findSome? fun target =>
    let path := String.ofList (target.toList.flatMap fun c => if c == '*' then p.2.toList else [c])
    pathFile? t s.packages (Path.resolve [s.pathsBase, path])

/-- The file of a package in the directories above a directory. -/
def packageFile? (t : FileTree) (directory name : String) : Option String :=
  let segs := Path.resolvedSegments [directory]
  (segs :: (FileTree.ancestors segs).reverse).findSome? fun d =>
    let place (parts : List String) := Path.absolute (d ++ "node_modules" :: parts)
    match pathFile? t true (place [name]) with
    | some file => some file
    | none => pathFile? t true (place ["@types", name])

/-- The file of the module that a text names. -/
def moduleFile? (t : FileTree) (s : Settings) (file name : String) : Option String :=
  let directory := Path.directory file
  match (Path.segments name).getLast?, (Path.segments name).head? with
  | some last, some first =>
    if first == "." || first == ".." || first == "" then
      let path := Path.resolve [directory, name]
      if last == "." || last == ".." || last == "" then
        if s.packages then directoryFile? t path else fileOf? t path
      else pathFile? t s.packages path
    else
      match mappedFile? t s name with
      | some found => some found
      | none =>
        match s.base.bind fun base => pathFile? t s.packages (Path.resolve [base, name]) with
        | some found => some found
        | none =>
          if s.packages then packageFile? t directory name
          else
            let segs := Path.resolvedSegments [directory]
            (segs :: (FileTree.ancestors segs).reverse).findSome? fun d =>
              fileOf? t (Path.absolute (d ++ [name]))
  | _, _ => none

end Metamodel.Source
