import Metamodel.Calendar
import Metamodel.CommandLine.Session
import Std.Time.DateTime.Timestamp

/-!
# The program

Loads the files that a call may read, has the session worked out, and brings what it wrote and
said into the world.
-/

namespace Metamodel.Program

/-- The tree with what lies at a path of the file system; files without readable text are empty. -/
partial def load (t : FileTree) (path : String) (recursive : Bool) : IO FileTree := do
  let segs := Path.resolvedSegments [path]
  let .ok place ← (IO.FS.realPath path).toBaseIO | return t
  if ← place.isDir then
    let mut t := t.setDirectories (FileTree.ancestors segs ++ [segs])
    if recursive then
      for entry in ← place.readDir do
        t ← load t (Path.resolve [path, entry.fileName]) true
    return t
  else
    let text := (String.fromUTF8? (← IO.FS.readBinFile place)).getD ""
    return (t.setDirectories (FileTree.ancestors segs)).set segs (.file text)

/-- The tree with the settings files in a directory. -/
def loadSettingsOf (t : FileTree) (directory : String) : IO FileTree := do
  let .ok place ← (IO.FS.realPath directory).toBaseIO | return t
  let mut t := t
  if ← place.isDir then
    for entry in ← place.readDir do
      if entry.fileName.endsWith ".json" then
        t ← load t (Path.resolve [directory, entry.fileName]) false
  return t

/-- The files that a run may read or write over: the project, what lies in the output directory,
the files named by the options, and the settings in the directories above the project. -/
def loadFor (o : ProjectOptions) (directory : String) : IO FileTree := do
  let root := Path.resolve [directory, o.source]
  let mut t ← load FileTree.empty directory false
  for above in FileTree.ancestors (Path.resolvedSegments [root]) do
    t ← loadSettingsOf t (Path.absolute above)
  t ← load t root true
  t ← load t (Path.resolve [directory, o.out]) true
  for file in [o.declarations, o.tsconfig, o.config].filterMap id do
    t ← load t (Path.resolve [root, file]) false
  for file in [o.report, o.graph].filterMap id do
    t ← load t (Path.resolve [directory, file]) false
  return t

/-- Writes the files in which a tree differs from an earlier one. -/
def store (before after : FileTree) : IO Unit := do
  for (segs, content) in after.files do
    if before.node? segs ≠ some (.file content) then
      let path := Path.absolute segs
      IO.FS.createDirAll (Path.directory path)
      IO.FS.writeFile path content

/-- Puts out a page, or the console lines of an entry. -/
def display : CommandLine.Output → IO Unit
  | .page text => IO.print text
  | .said entry isVerbose =>
    for (stream, line) in entry.consoleLines isVerbose do
      match stream with
      | .log => IO.println line
      | .warn | .error => IO.eprintln line

/-- Carries out a call with its arguments; the result is the exit code. -/
def call (args : List String) : IO UInt32 := do
  let directory := (← IO.currentDir).toString
  let now := (← Std.Time.Timestamp.now).toMillisecondsSinceUnixEpoch.val
  let instant := (Calendar.isoText? now).getD ""
  let files ←
    match CommandLine.Request.ofArguments args with
    | .ok (.run options _) => loadFor options directory
    | _ => pure FileTree.empty
  let session := CommandLine.Session.ofArguments files ⟨directory, instant, instant⟩ args
  store files session.files
  for output in session.output do
    display output
  return UInt32.ofNat session.exitCode

end Metamodel.Program

/-- The program; failures of the file system end it with the code 2. -/
def main (args : List String) : IO UInt32 := do
  try
    Metamodel.Program.call args
  catch e =>
    IO.eprintln (Metamodel.toolName ++ " failed: " ++ toString e)
    return 2
