import Metamodel.Path

/-!
# File trees

A tree of files and directories, addressed by the segments of absolute paths. Reading, making
directories and writing either succeed or fail for one of the causes of `FileError`; a failed
operation leaves no trace. A directory exists as soon as something lies in it.
-/

namespace Metamodel

/-- What lies at a path. -/
inductive FileNode where
  | file (content : String)
  | directory
  deriving DecidableEq, Inhabited

/-- The operation that met an obstacle. -/
inductive FileOperation where
  | opening
  | making
  | listing
  deriving DecidableEq

def FileOperation.text : FileOperation → String
  | opening => "open"
  | making => "mkdir"
  | listing => "scandir"

/-- Why an operation on a file tree failed. -/
inductive FileError where
  /-- nothing lies at the path -/
  | missing (path : String)
  /-- a file lies where the path needs a directory -/
  | notDirectory (operation : FileOperation) (path : String)
  /-- a directory cannot be read as a file -/
  | readsDirectory
  /-- a directory cannot be overwritten by a file -/
  | overwritesDirectory (path : String)
  /-- a file lies where a directory is to be made -/
  | alreadyFile (path : String)
  deriving DecidableEq

def FileError.message : FileError → String
  | missing path => "ENOENT: no such file or directory, open '" ++ path ++ "'"
  | notDirectory operation path =>
    "ENOTDIR: not a directory, " ++ operation.text ++ " '" ++ path ++ "'"
  | readsDirectory => "EISDIR: illegal operation on a directory, read"
  | overwritesDirectory path =>
    "EISDIR: illegal operation on a directory, open '" ++ path ++ "'"
  | alreadyFile path => "EEXIST: file already exists, mkdir '" ++ path ++ "'"

/-- A tree of files and directories. The root is a directory that is not listed. -/
structure FileTree where
  /-- what lies at the segments of each path, one entry a path -/
  nodes : List (List String × FileNode)
  deriving Inhabited

namespace FileTree

def empty : FileTree := ⟨[]⟩

/-- What lies at the segments of a path. -/
def node? (t : FileTree) (segs : List String) : Option FileNode :=
  if segs = [] then some .directory else t.nodes.lookup segs

/-- The tree with a node at the segments of a path, in place of what lay there. -/
def set (t : FileTree) (segs : List String) (n : FileNode) : FileTree :=
  ⟨t.nodes.filter (·.1 ≠ segs) ++ [(segs, n)]⟩

/-- The beginnings of a list of segments, the shortest first, without the list itself. -/
def ancestors (segs : List String) : List (List String) :=
  (List.range segs.length).map segs.take

/-- Whether a path leads through a file. -/
def blocked (t : FileTree) (segs : List String) : Bool :=
  (ancestors segs).any fun a => t.node? a matches some (.file _)

/-- Whether something lies at the path. -/
def contains (t : FileTree) (path : String) : Bool :=
  (t.node? (Path.resolvedSegments [path])).isSome

/-- Whether a file lies at the path. -/
def hasFile (t : FileTree) (path : String) : Bool :=
  t.node? (Path.resolvedSegments [path]) matches some (.file _)

/-- The content of the file at a path. -/
def read (t : FileTree) (path : String) : Except FileError String :=
  let segs := Path.resolvedSegments [path]
  match t.node? segs with
  | some (.file content) => .ok content
  | some .directory => .error .readsDirectory
  | none => .error (if t.blocked segs then .notDirectory .opening path else .missing path)

/-- The tree with a directory at each of the paths where nothing lies. -/
def setDirectories (t : FileTree) (paths : List (List String)) : FileTree :=
  paths.foldl (fun t p => if (t.node? p).isSome then t else t.set p .directory) t

/-- The tree with the directory of a path and all directories that lead to it. -/
def makeDirectory (t : FileTree) (path : String) : Except FileError FileTree :=
  let segs := Path.resolvedSegments [path]
  match t.node? segs with
  | some (.file _) => .error (.alreadyFile path)
  | some .directory => .ok t
  | none =>
    if t.blocked segs then .error (.notDirectory .making path)
    else .ok (t.setDirectories (ancestors segs ++ [segs]))

/-- The tree with a content at a path whose directory exists. -/
def write (t : FileTree) (path content : String) : Except FileError FileTree :=
  let segs := Path.resolvedSegments [path]
  match t.node? segs with
  | some .directory => .error (.overwritesDirectory path)
  | some (.file _) => .ok (t.set segs (.file content))
  | none =>
    match t.node? segs.dropLast with
    | some .directory => .ok (t.set segs (.file content))
    | some (.file _) => .error (.notDirectory .opening path)
    | none => .error (.missing path)

/-- The tree with a content at a path, for which directories are made. -/
def writeWithin (t : FileTree) (path content : String) : Except FileError FileTree := do
  (← t.makeDirectory (Path.directory path)).write path content

/-- The tree with a content at each of the given paths, whatever lay there. -/
def ofFiles (files : List (String × String)) : FileTree :=
  files.foldl
    (fun t f =>
      let segs := Path.resolvedSegments [f.1]
      (t.setDirectories (ancestors segs)).set segs (.file f.2))
    empty

/-- The files of the tree with their segments. -/
def files (t : FileTree) : List (List String × String) :=
  t.nodes.filterMap fun n =>
    match n.2 with
    | .file content => some (n.1, content)
    | .directory => none

/-- The segments behind those of a directory, for a path that lies in it. -/
def within? (directory segs : List String) : Option (List String) :=
  if directory.isPrefixOf segs ∧ directory.length < segs.length then
    some (segs.drop directory.length)
  else none

/-- The files in and under a directory, by their segments from there on. Nothing lies in a
directory that does not exist. -/
def filesUnder (t : FileTree) (path : String) : Except FileError (List (List String)) :=
  let segs := Path.resolvedSegments [path]
  if t.node? segs matches some (.file _) ∨ t.blocked segs then
    .error (.notDirectory .listing path)
  else .ok (t.files.filterMap fun f => within? segs f.1)

end FileTree

end Metamodel
