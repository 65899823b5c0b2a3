import Metamodel.Source.Program.Module
import Metamodel.Source.Statement.Parser

/-!
# Programs

A program is made of the source texts of a project and of all texts that they name as modules, under
the settings of the project.
-/

namespace Metamodel.Source

/-- A source text. -/
structure SourceText where
  statements : List Statement
  /-- whether its names are its own, and not known to all texts -/
  isModule : Bool
  /-- the modules that it names, with their files -/
  modules : List (String × String)
  deriving Inhabited

/-- The source texts of a project. -/
structure Program where
  settings : Settings
  /-- the absolute paths of the project's source files, with their paths in the project -/
  scanned : List (String × String)
  /-- the texts by their absolute paths -/
  texts : List (String × SourceText)
  deriving Inhabited

namespace SourceText

/-- The names of modules in some tokens. -/
def moduleNames : List Token → List String
  | t :: u :: rest =>
    if t.isOneOf ["from", "import"] && u.kind == .string then
      textValue u.text :: moduleNames (u :: rest)
    else if t.isOneOf ["import", "require"] && u.isMark "(" then
      match rest with
      | v :: behind =>
        if v.kind == .string then textValue v.text :: moduleNames (v :: behind)
        else moduleNames (u :: v :: behind)
      | [] => []
    else moduleNames (u :: rest)
  | _ => []

/-- The source text of a file. -/
def parse (t : FileTree) (s : Settings) (file text : String) : SourceText :=
  let ts := tokens text
  let statements := Statement.listFrom (ts.length + 1) ts
  ⟨statements, statements.any Statement.marksModule,
    (moduleNames ts).eraseDups.filterMap fun name => (moduleFile? t s file name).map (name, ·)⟩

end SourceText

namespace Program

/-- The texts of some files and of the modules that they name; `n` bounds the number of texts. -/
def textsFrom (t : FileTree) (s : Settings) :
    Nat → List (String × SourceText) → List String → List (String × SourceText)
  | 0, known, _ => known
  | _, known, [] => known
  | n + 1, known, file :: files =>
    if known.any (·.1 == file) then textsFrom t s n known files
    else
      match t.read file with
      | .error _ => textsFrom t s n known files
      | .ok text =>
        let parsed := SourceText.parse t s file text
        let unread := (parsed.modules.map (·.2)).eraseDups.filter fun m =>
          m != file && !known.any (·.1 == m) && !files.contains m
        textsFrom t s n (known ++ [(file, parsed)]) (files ++ unread)

/-- The program of the files in a project's directory, given by their paths in it. A file that cannot be
read is skipped. -/
def ofFiles (t : FileTree) (s : Settings) (root : String) (files : List String) : Program :=
  let scanned := files.map fun f => (Path.withSlashes (Path.resolve [root, f]), f)
  ⟨s, scanned, textsFrom t s (t.nodes.length + files.length + 1) [] (scanned.map (·.1))⟩

/-- The text of a file. -/
def text? (p : Program) (file : String) : Option SourceText :=
  p.texts.lookup file

end Program

end Metamodel.Source
